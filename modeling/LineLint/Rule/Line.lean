import LineLint.Code.Header.VisualBasic
import LineLint.Rule.Basic

/-! # Rules for single lines

Six checks that judge each line by itself: long lines and `TODO` marks in C#,
jumps in VB.NET, and careless statements in T-SQL.  They differ in what they look
for and in what they say of it (`LineCheck`); what a rule makes of it is the same
for all (`LineCheck.rule`).
-/
namespace LineLint

/-- What is looked for on the lines of a dialect, and what is said of the lines that have it. -/
structure LineCheck where
  /-- The name of the rule, which is also the kind of its issues. -/
  name : String
  /-- The dialect. -/
  dialect : Dialect
  /-- How grave the issues are. -/
  severity : Severity
  /-- What the rule does, in one line. -/
  description : String
  /-- Whether a line is reported. -/
  isBad : List Char → Bool
  /-- What is wrong with a line. -/
  message : List Char → String
  /-- What to do about it. -/
  suggestion : String

namespace LineCheck

/-- The issue for a line. -/
def issue (check : LineCheck) (number : Nat) (line : List Char) : Issue where
  kind := check.name
  line := some number
  message := check.message line
  suggestion := check.suggestion
  severity := check.severity

/-- The rule that reports the lines of the dialect that are bad. -/
def rule (check : LineCheck) : Rule where
  name := check.name
  family := .dialect
  appliesTo := fun dialect => dialect == check.dialect
  severity := check.severity
  description := check.description
  check := Rule.checkLines check.isBad check.issue

/-- The rule finds an issue for each bad line, and no other ones. -/
theorem mem_check_iff {check : LineCheck} {snippet : Snippet} {issue : Issue} :
    issue ∈ check.rule.check snippet ↔ ∃ numbered ∈ snippet.numberedLines,
      check.isBad numbered.1 = true ∧ check.issue numbered.2 numbered.1 = issue := by
  simp only [rule, Rule.checkLines, List.mem_map, List.mem_filter, and_assoc]

end LineCheck

namespace Rule

open Pattern

/-- Most characters on a line, unless configured otherwise. -/
def defaultMaxLength : Nat := 120

/-- Lines of C# that are longer than a limit. -/
def longLine (maxLength : Nat) (severity : Severity) : Rule :=
  LineCheck.rule
    { name := "CSharp.LongLine"
      dialect := .csharp
      severity := severity
      description := "Flags lines longer than 120 characters"
      isBad := fun line => maxLength < line.length
      message := fun line => "Line exceeds " ++ toString maxLength ++ " characters (" ++
        toString line.length ++ ")."
      suggestion := "Wrap or refactor to reduce line length." }

/-- `TODO` marks in C#, in any case and anywhere on the line. -/
def todo : Rule :=
  LineCheck.rule
    { name := "CSharp.TODO"
      dialect := .csharp
      severity := .info
      description := "Surfaces TODO comments"
      isBad := fun line => Text.contains (Text.lower line) "todo".toList
      message := fun _ => "TODO comment found."
      suggestion := "Resolve or track the TODO with an issue." }

/-- The word `GoTo`. -/
def gotoPattern : Pattern :=
  edge ++ word "GoTo" ++ edge

/-- Jumps in VB.NET. -/
def goto : Rule :=
  LineCheck.rule
    { name := "VBNet.GoTo"
      dialect := .vbnet
      severity := .warning
      description := "Flags unstructured GoTo jumps"
      isBad := gotoPattern.occursIn
      message := fun _ => "Usage of 'GoTo' found."
      suggestion := "Avoid GoTo; use structured control flow (If/Else, Select Case, loops)." }

/-- Whether a text in capitals occurs in the capitalized line. -/
def mentions (line : List Char) (capitals : String) : Bool :=
  Text.contains (Text.upper line) capitals.toList

/-- Queries for all columns. -/
def selectStar : Rule :=
  LineCheck.rule
    { name := "SQL.SelectStar"
      dialect := .sql
      severity := .warning
      description := "Flags SELECT * projections"
      isBad := fun line => mentions line "SELECT *"
      message := fun _ => "Usage of SELECT * detected."
      suggestion := "Specify explicit column names to improve performance and stability." }

/-- Whether a line deletes or updates without a filter on the same line. -/
def lacksWhere (line : List Char) : Bool :=
  (mentions line "DELETE" || mentions line "UPDATE") && !mentions line "WHERE"

/-- Mutations of whole tables. -/
def missingWhere : Rule :=
  LineCheck.rule
    { name := "SQL.MissingWhere"
      dialect := .sql
      severity := .error
      description := "Flags DELETE/UPDATE without a WHERE clause"
      isBad := lacksWhere
      message := fun _ => "DELETE/UPDATE without WHERE clause."
      suggestion := "Add a WHERE clause to avoid affecting unintended rows." }

/-- Hints that allow uncommitted reads. -/
def noLock : Rule :=
  LineCheck.rule
    { name := "SQL.NoLock"
      dialect := .sql
      severity := .info
      description := "Surfaces dirty-read NOLOCK hints"
      isBad := fun line => mentions line "NOLOCK"
      message := fun _ => "WITH (NOLOCK) hint detected."
      suggestion := "Be aware NOLOCK can read uncommitted data; consider SNAPSHOT isolation " ++
        "or proper indexing." }

end Rule
end LineLint
