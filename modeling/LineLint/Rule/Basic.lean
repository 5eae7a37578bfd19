import LineLint.Snippet

/-! # Rules

A rule inspects a snippet and reports issues in a fixed order.  Rules belong to
families, and families run in the order of `Family.all`.
-/
namespace LineLint

/-- The family that a rule belongs to. -/
inductive Family where
  /-- Checks made for one dialect. -/
  | dialect
  /-- Checks of names. -/
  | naming
  /-- Structural checks made for every dialect. -/
  | smell
  deriving DecidableEq, Repr

namespace Family

/-- All families in the order in which they run. -/
def all : List Family :=
  [dialect, naming, smell]

/-- The word for a family. -/
def name : Family → String
  | dialect => "dialect"
  | naming => "naming"
  | smell => "smell"

end Family

/-- A check. -/
structure Rule where
  /-- Dotted name. -/
  name : String
  /-- Family. -/
  family : Family
  /-- Whether the rule is made for a dialect. -/
  appliesTo : Dialect → Bool
  /-- The severity of its issues, unless a configuration says otherwise. -/
  severity : Severity
  /-- What the rule does, in one line. -/
  description : String
  /-- The issues that the rule finds, in order. -/
  check : Snippet → List Issue

namespace Rule

/-- A rule that looks at each line on its own and reports the lines that `isBad` holds of. -/
def checkLines (isBad : List Char → Bool) (issue : Nat → List Char → Issue)
    (snippet : Snippet) : List Issue :=
  (snippet.numberedLines.filter fun numbered => isBad numbered.1).map
    fun numbered => issue numbered.2 numbered.1

/-- Whether a dialect is one of the three that are known. -/
def knownDialect (dialect : Dialect) : Bool :=
  dialect != .unknown

end Rule
end LineLint
