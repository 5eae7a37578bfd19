import LineLint.Code.Header.VisualBasic
import LineLint.Rule.Basic

/-! # Procedures without a terminator

Openers and terminators of VB.NET procedures are counted over the whole snippet,
for each kind apart.  Where openers are more, one issue concerns the snippet as
a whole.
-/
namespace LineLint
namespace Rule

open Code.VisualBasic

/-- What a line does to the balance of procedures. -/
inductive ProcedureLine where
  /-- It opens a procedure with a body. -/
  | opens (kind : ProcedureKind)
  /-- It closes a procedure. -/
  | closes (kind : ProcedureKind)
  /-- It does neither. -/
  | neutral
  deriving DecidableEq, Repr

/-- Classifies a line; headers go first, and a header without a body is neutral. -/
def ProcedureLine.of (line : List Char) : ProcedureLine :=
  match procedureHeader? line with
  | some (kind, header) => if header.bodiless then .neutral else .opens kind
  | none =>
    match procedureEnd? line with
    | some kind => .closes kind
    | none => .neutral

/-- Whether more procedures of a kind are opened than closed. -/
def lacksEnd (kind : ProcedureKind) (lines : List (List Char)) : Bool :=
  let classified := lines.map ProcedureLine.of
  classified.count (.closes kind) < classified.count (.opens kind)

/-- The issue for a kind of procedure. -/
def missingEndIssue : ProcedureKind → Issue
  | .sub =>
    { kind := "VBNet.MissingEndSub"
      line := none
      message := "Detected 'Sub' without matching 'End Sub'."
      suggestion := "Ensure each Sub is closed with 'End Sub'."
      severity := .error }
  | .function =>
    { kind := "VBNet.MissingEndFunction"
      line := none
      message := "Detected 'Function' without matching 'End Function'."
      suggestion := "Ensure each Function is closed with 'End Function'."
      severity := .error }

/-- Procedures of VB.NET without a terminator. -/
def missingEnd : Rule where
  name := "VBNet.MissingEnd"
  family := .dialect
  appliesTo := fun dialect => dialect == .vbnet
  severity := .error
  description := "Detects Sub/Function without End Sub/End Function"
  check := fun snippet =>
    ([.sub, .function].filter fun kind => lacksEnd kind snippet.lines).map missingEndIssue

end Rule
end LineLint
