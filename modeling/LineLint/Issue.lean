import LineLint.Severity

/-! # Issues and reports

An issue is one finding; a report is the summary of a snippet with its issues
in the order in which they were found.
-/
namespace LineLint

/-- One finding. -/
structure Issue where
  /-- Dotted name of what was found. -/
  kind : String
  /-- Line number, counted from one; absent if the finding concerns the snippet as a whole. -/
  line : Option Nat
  /-- What was found. -/
  message : String
  /-- What to do about it. -/
  suggestion : String
  /-- How grave it is. -/
  severity : Severity
  deriving DecidableEq, Repr

namespace Issue

/-- The issue on one line of a numbered report: `[Kind] (Line n): message -> suggestion`. -/
def describe (issue : Issue) : String :=
  let place := match issue.line with
    | some n => " (Line " ++ toString n ++ ")"
    | none => ""
  "[" ++ issue.kind ++ "]" ++ place ++ ": " ++ issue.message ++ " -> " ++ issue.suggestion

/-- The issue on one line of a compact report: `n: severity [Kind] message`. -/
def brief (issue : Issue) : String :=
  let place := match issue.line with
    | some n => toString n
    | none => "-"
  place ++ ": " ++ issue.severity.word ++ " [" ++ issue.kind ++ "] " ++ issue.message

end Issue

/-- The outcome of a review. -/
structure Report where
  /-- One sentence on what the snippet is for. -/
  summary : String
  /-- The findings, in the order of the rules that made them. -/
  issues : List Issue
  deriving DecidableEq, Repr

namespace Report

/-- The report on nothing. -/
def empty : Report :=
  ⟨"", []⟩

/-- Whether there is an issue of a severity or a graver one. -/
def hasIssuesAt (report : Report) (severity : Severity) : Bool :=
  report.issues.any fun issue => severity ≤ issue.severity

/-- Whether there is an error. -/
def hasErrors (report : Report) : Bool :=
  report.issues.any fun issue => issue.severity == .error

/-- The issues of one kind. -/
def ofKind (report : Report) (kind : String) : List Issue :=
  report.issues.filter fun issue => issue.kind == kind

/-- Number of issues of a severity. -/
def count (report : Report) (severity : Severity) : Nat :=
  report.issues.countP fun issue => issue.severity == severity

/-- Every issue has one of the three severities. -/
theorem count_add_count_add_count (report : Report) :
    report.count .error + report.count .warning + report.count .info = report.issues.length := by
  obtain ⟨_, issues⟩ := report
  simp only [count]
  induction issues with
  | nil => rfl
  | cons issue issues ih =>
    simp only [List.countP_cons, List.length_cons]
    cases issue.severity <;> simp <;> omega

/-- There is an error exactly when there is an issue at least as grave as one. -/
theorem hasErrors_eq_hasIssuesAt (report : Report) :
    report.hasErrors = report.hasIssuesAt .error := by
  have (severity : Severity) : (severity == .error) = decide (Severity.error ≤ severity) := by
    cases severity <;> decide
  simp [hasErrors, hasIssuesAt, this]

end Report
end LineLint
