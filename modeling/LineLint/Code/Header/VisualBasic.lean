import LineLint.Code.Header
import LineLint.Pattern.Vocabulary
import LineLint.Text.Search

/-! # Headers and terminators of VB.NET

`Sub` and `Function` open procedures, `Class` and `Module` open types, and
`End` with the keyword closes what is open.  All of them stand at the start of
their line.
-/
namespace LineLint
namespace Code
namespace VisualBasic

open Pattern

/-- The marker of line comments. -/
def commentMarker : List Char := "'".toList

/-- The two kinds of procedures. -/
inductive ProcedureKind where
  /-- A procedure without a result. -/
  | sub
  /-- A procedure with a result. -/
  | function
  deriving DecidableEq, Repr

/-- Modifiers in front of a procedure. -/
def procedureModifiers : List String :=
  ["Public", "Private", "Protected", "Friend", "Shared", "Static", "Overrides", "Overridable",
   "Overloads", "NotOverridable", "MustOverride", "Async", "Iterator", "Partial"]

/-- Modifiers in front of a class. -/
def classModifiers : List String :=
  ["Public", "Private", "Protected", "Friend", "Partial", "MustInherit", "NotInheritable"]

/-- `Sub name` or `Function name` behind any number of modifiers, with the parameter list if
it follows and closes on the line. -/
def procedurePattern : Pattern :=
  textStart ++ spaces ++ named .modifiers (repeated (words procedureModifiers ++ gap)) ++
    named .keyword (words ["Sub", "Function"]) ++ gap ++ named .name identifier ++ spaces ++
    optional (exactly '(' ++ named .params (allBut ')') ++ exactly ')')

/-- `Class Name` or `Module Name` behind any number of modifiers. -/
def classPattern : Pattern :=
  textStart ++ spaces ++ repeated (words classModifiers ++ gap) ++
    named .keyword (words ["Class", "Module"]) ++ gap ++ named .name identifier

/-- `End Sub` or `End Function`. -/
def procedureEndPattern : Pattern :=
  textStart ++ spaces ++ word "End" ++ gap ++ named .keyword (words ["Sub", "Function"]) ++ edge

/-- `End` with the keyword of any block. -/
def blockEndPattern : Pattern :=
  textStart ++ spaces ++ word "End" ++ gap ++
    words ["If", "Sub", "Function", "Class", "Module"] ++ edge

/-- `End Class`. -/
def classEndPattern : Pattern :=
  textStart ++ spaces ++ word "End" ++ gap ++ word "Class" ++ edge

/-- An `If` whose line ends in `Then`. -/
def ifThenPattern : Pattern :=
  textStart ++ spaces ++ word "If" ++ edge ++ many (· != '\n') ++ edge ++ word "Then" ++ spaces ++
    textEnd

/-- The kind that a keyword names. -/
def ProcedureKind.ofKeyword (keyword : List Char) : ProcedureKind :=
  if Text.sameIgnoringCase keyword "sub".toList then .sub else .function

/-- Whether a keyword is `Class` in any case of its ASCII letters. -/
def isClassKeyword (keyword : List Char) : Bool :=
  Text.sameIgnoringCase keyword "class".toList

/-- The procedure header at the start of a line, with its kind.  `MustOverride` declares no
body. -/
def procedureHeader? (line : List Char) : Option (ProcedureKind × Header) :=
  (procedurePattern.find? line).map fun m =>
    (ProcedureKind.ofKeyword (m.part .keyword),
      { name := m.part .name
        params := m.part? .params
        bodiless :=
          Text.contains (Text.asciiLower (m.part .modifiers)) "mustoverride".toList })

/-- The header of a procedure that has a body. -/
def bodyHeader? (line : List Char) : Option Header :=
  match procedureHeader? line with
  | some (_, header) => if header.bodiless then none else some header
  | none => none

/-- The name that a class header at the start of the line declares. -/
def className? (line : List Char) : Option (List Char) :=
  match classPattern.find? line with
  | some m => if isClassKeyword (m.part .keyword) then some (m.part .name) else none
  | none => none

/-- The kind of procedure that a line closes. -/
def procedureEnd? (line : List Char) : Option ProcedureKind :=
  (procedureEndPattern.find? line).map fun m => ProcedureKind.ofKeyword (m.part .keyword)

/-- Whether a line closes a class. -/
def endsClass (line : List Char) : Bool :=
  classEndPattern.occursIn line

end VisualBasic
end Code
end LineLint
