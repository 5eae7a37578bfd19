/-! # Severities

How grave a finding is.  The order is the order of the constructors.
-/
namespace LineLint

/-- How grave a finding is. -/
inductive Severity where
  /-- A matter of style or awareness. -/
  | info
  /-- A risk to maintainability. -/
  | warning
  /-- A risk to correctness or safety. -/
  | error
  deriving DecidableEq, Repr

namespace Severity

/-- The position in the order of severities. -/
def rank : Severity → Nat
  | info => 0
  | warning => 1
  | error => 2

instance : LE Severity := ⟨fun a b => a.rank ≤ b.rank⟩

instance (a b : Severity) : Decidable (a ≤ b) := inferInstanceAs (Decidable (a.rank ≤ b.rank))

/-- The word used in reports for people. -/
def word : Severity → String
  | info => "info"
  | warning => "warning"
  | error => "error"

/-- The name used in data. -/
def name : Severity → String
  | info => "Info"
  | warning => "Warning"
  | error => "Error"

/-- Reads a severity: its name, or its word. -/
def ofName? (text : String) : Option Severity :=
  [info, warning, error].find? fun severity => text == severity.name || text == severity.word

theorem ofName?_name (severity : Severity) : ofName? severity.name = some severity := by
  cases severity <;> decide

end Severity
end LineLint
