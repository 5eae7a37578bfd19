import LineLint.Proofs.Checked.Rules
import LineLint.Review

/-! # Reviews evaluated with checks

A review is put together here from the checked evaluations of its parts: the lines of
the text, the rules, and the summary.  A read, a cut or a subtraction that is out of
range anywhere makes the whole review come to nothing.  None ever does: whatever the
preset, the configuration with its thresholds, the text and the dialect, the checked
review is there, and it is the review (`review_eq_some`).
-/
namespace LineLint
namespace Checked

open Text

/-! ## What a snippet is for -/

namespace Intent

open LineLint.Intent (tablePattern createRoutinePattern genericLogic ofName)

/-- The first table named behind a keyword, without brackets. -/
def tableBehind (keyword : String) (text : List Char) : Option (List Char) :=
  match (tablePattern keyword).find? text with
  | some m => do
    let name := (← m.part? .name).filter fun c => c != '[' && c != ']'
    return if name.isEmpty then "table".toList else name
  | none => some "table".toList

/-- A sentence about the table behind a keyword. -/
def aboutTable (front : String) (keyword : String) (text : List Char) : Option (List Char) := do
  let table ← tableBehind keyword text
  return front.toList ++ table ++ ['.']

/-- What a T-SQL text does. -/
def ofSql (text : List Char) : Option (List Char) :=
  let capitals := upper text
  if contains capitals "SELECT".toList then aboutTable "Retrieves data from " "FROM" text
  else if contains capitals "INSERT".toList then
    aboutTable "Inserts new records into " "INTO" text
  else if contains capitals "UPDATE".toList then aboutTable "Updates records in " "UPDATE" text
  else if contains capitals "DELETE".toList then aboutTable "Deletes records from " "FROM" text
  else if createRoutinePattern.occursIn text then
    some "Defines stored procedure/function.".toList
  else some "Executes SQL command.".toList

/-- The name of the procedure that a line declares. -/
def procedureName? (dialect : Dialect) (line : List Char) : Option (Option (List Char)) :=
  match dialect with
  | .vbnet => do
    let found ← VisualBasic.procedureHeader? line
    return found.map (·.2.name)
  | _ => do
    let header ← CSharp.methodHeader? line
    return header.map (·.name)

/-- The name of the class that a line declares. -/
def className? (dialect : Dialect) (line : List Char) : Option (Option (List Char)) :=
  match dialect with
  | .vbnet => VisualBasic.className? line
  | _ => CSharp.className? line

/-- The first procedure that a snippet declares, or else the first class. -/
def firstDeclared? (snippet : Snippet) : Option (Option (List Char)) := do
  let lines ← lines snippet.text
  match ← lines.findSomeM? (procedureName? snippet.dialect) with
  | some name => return some name
  | none => lines.findSomeM? (className? snippet.dialect)

/-- What code is for. -/
def ofCode (snippet : Snippet) : Option String := do
  if ← mentionsLoan snippet.text then return "Calculates loan interest."
  else
    match ← firstDeclared? snippet with
    | some name => return ofName name
    | none => return genericLogic

/-- What a snippet is for, in a sentence that is not yet put into form. -/
def describe (snippet : Snippet) : Option (List Char) :=
  if snippet.isBlank then some Sentence.fallback
  else
    match snippet.dialect with
    | .sql => ofSql snippet.text
    | _ => (ofCode snippet).map String.toList

theorem tableBehind_eq (keyword : String) (text : List Char) :
    tableBehind keyword text = some (LineLint.Intent.tableBehind keyword text) := by
  rw [tableBehind, LineLint.Intent.tableBehind]
  cases hfind : (tablePattern keyword).find? text with
  | none => rfl
  | some m =>
    have hpasses : (tablePattern keyword).passes .name = true := Bool.or_true _
    simp only [(Pattern.found_of_find? hfind).part?_eq hpasses]
    rfl

theorem aboutTable_eq (front keyword : String) (text : List Char) :
    aboutTable front keyword text = some (LineLint.Intent.aboutTable front keyword text) := by
  rw [aboutTable, tableBehind_eq]
  rfl

theorem ofSql_eq (text : List Char) : ofSql text = some (LineLint.Intent.ofSql text) := by
  simp only [ofSql, aboutTable_eq, LineLint.Intent.ofSql, apply_ite some]

theorem procedureName?_eq (dialect : Dialect) (line : List Char) :
    procedureName? dialect line = some (LineLint.Intent.procedureName? dialect line) := by
  cases dialect with
  | vbnet =>
    simp only [procedureName?, VisualBasic.procedureHeader?_eq]
    rfl
  | unknown | csharp | sql =>
    simp only [procedureName?, CSharp.methodHeader?_eq]
    rfl

theorem className?_eq (dialect : Dialect) (line : List Char) :
    className? dialect line = some (LineLint.Intent.className? dialect line) := by
  cases dialect with
  | vbnet => exact VisualBasic.className?_eq line
  | unknown | csharp | sql => exact CSharp.className?_eq line

theorem firstDeclared?_eq (snippet : Snippet) :
    firstDeclared? snippet = some (LineLint.Intent.firstDeclared? snippet) := by
  have hprocedure := findSomeM?_eq_some fun line (_ : line ∈ snippet.lines) =>
    procedureName?_eq snippet.dialect line
  have hclass := findSomeM?_eq_some fun line (_ : line ∈ snippet.lines) =>
    className?_eq snippet.dialect line
  rw [firstDeclared?, lines_snippet, LineLint.Intent.firstDeclared?]
  simp only [Option.bind_eq_bind, Option.bind_some, hprocedure, hclass]
  cases snippet.lines.findSome? (LineLint.Intent.procedureName? snippet.dialect) <;> rfl

theorem ofCode_eq (snippet : Snippet) : ofCode snippet = some (LineLint.Intent.ofCode snippet) := by
  rw [ofCode, mentionsLoan_eq, LineLint.Intent.ofCode]
  simp only [Option.bind_eq_bind, Option.bind_some, firstDeclared?_eq]
  cases LoanTerms.mentionedIn snippet.text with
  | true => rfl
  | false => cases LineLint.Intent.firstDeclared? snippet <;> rfl

theorem describe_eq (snippet : Snippet) :
    describe snippet = some (LineLint.Intent.describe snippet) := by
  obtain ⟨text, dialect⟩ := snippet
  rw [describe, LineLint.Intent.describe]
  split
  · rfl
  · cases dialect with
    | sql => exact ofSql_eq text
    | unknown | csharp | vbnet =>
      simp only [ofCode_eq]
      rfl

end Intent

/-! ## Reviews -/

/-- A rule of the catalog with the thresholds of a configuration. -/
def built (config : Config) (template : RuleTemplate) : Rule :=
  template.build (config.threshold template.name)

/-- The rules of a preset in the order in which they run. -/
def schedule (preset : Preset) (config : Config) : List RuleTemplate :=
  Family.all.flatMap fun family =>
    (Catalog.templates.filter fun template => preset.takes (built config template)).filter
      fun template => (built config template).family == family

/-- The issues that one rule contributes. -/
def contribution (config : Config) (snippet : Snippet) (template : RuleTemplate) :
    Option (List Issue) :=
  let rule := built config template
  if rule.appliesTo snippet.dialect && config.isEnabled rule.name then do
    let issues ← check template (config.threshold template.name) snippet
    return Reviewer.withSeverity (config.severityOf rule.name) issues
  else some []

/-- Reviews a text as written in a dialect, with the rules of a preset. -/
def review (preset : Preset) (config : Config) (text : List Char) (dialect : Dialect) :
    Option Report := do
  let _ ← lines text
  let snippet : Snippet := ⟨text, dialect⟩
  if snippet.isBlank then return ⟨String.ofList Sentence.fallback, []⟩
  else
    let issues ← (schedule preset config).mapM (contribution config snippet)
    let raw ← Intent.describe snippet
    return ⟨String.ofList (Sentence.ofText raw), issues.flatten⟩

/-- The reviewer with the rules of a preset and a configuration. -/
def reviewer (preset : Preset) (config : Config) : Reviewer :=
  ⟨preset.configured config, LineLint.Intent.describe, config⟩

theorem schedule_reviewer (preset : Preset) (config : Config) :
    (reviewer preset config).schedule = (schedule preset config).map (built config) := by
  have hrules : (reviewer preset config).rules =
      (Catalog.templates.filter fun template => preset.takes (built config template)).map
        (built config) := List.filter_map
  rw [Reviewer.schedule, hrules, schedule, List.map_flatMap]
  simp only [List.filter_map]
  rfl

theorem contribution_eq {config : Config} {template : RuleTemplate}
    (h : template ∈ Catalog.templates) (preset : Preset) (snippet : Snippet) :
    contribution config snippet template =
      some ((reviewer preset config).contribution snippet (built config template)) := by
  have hadmits : ((built config template).appliesTo snippet.dialect &&
      config.isEnabled (built config template).name) =
        (reviewer preset config).admits snippet.dialect (built config template) := rfl
  rw [contribution, Reviewer.contribution, check_eq h]
  simp only [hadmits]
  cases (reviewer preset config).admits snippet.dialect (built config template) <;> rfl

/-- **A review never fails.**  No byte, line or list is read out of range, no text is cut
inside a character, nothing is subtracted below zero and no search runs for ever, whatever the
preset, the thresholds and settings of the configuration, the text and the dialect: the review
with checks comes to an end, and it is the review. -/
theorem review_eq_some (preset : Preset) (config : Config) (text : List Char)
    (dialect : Dialect) :
    review preset config text dialect =
      some ((Reviewer.mk (preset.configured config) LineLint.Intent.describe config).review
        text dialect) := by
  have hissues : ∀ template ∈ schedule preset config,
      contribution config ⟨text, dialect⟩ template =
        some ((reviewer preset config).contribution ⟨text, dialect⟩ (built config template)) := by
    intro template htemplate
    obtain ⟨family, -, hmem⟩ := List.mem_flatMap.mp htemplate
    exact contribution_eq (List.mem_filter.mp (List.mem_filter.mp hmem).1).1 preset _
  change _ = some ((reviewer preset config).review text dialect)
  rw [review, lines_eq, Reviewer.review, schedule_reviewer]
  simp only [Option.bind_eq_bind, Option.bind_some, mapM_eq_some hissues, Intent.describe_eq]
  split
  · rfl
  · rw [List.flatMap_map, List.flatMap_def]
    rfl

end Checked
end LineLint
