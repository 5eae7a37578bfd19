import LineLint.CommandLine.FileTree
import LineLint.CommandLine.Run
import LineLint.Proofs.CommandLine.Display
import LineLint.Proofs.CommandLine.Loading

/-!
# What a check comes to

A command line that asks for a check gives what a review of the text gives, under
the configuration that is loaded, with the dialect and the preset of the line in
place of its own (`run_check`).  Which configuration and which text these are is
said by `ConfigFile.Loads` and `ReadsText`, and which preset by `PresetNamed`.
`Shows` says what can be told from the outcome, in each format, of the report: the
exit code whether there is an error, the JSON form the whole report, and the text
form the issues with their numbers.

The run is one in any world: reading the environment, the files and the standard
input are steps that may change its state.  So the same theorem is about a tree of
files in memory and about any other world.
-/
namespace LineLint

open CommandLine Data Text

/-! ## Lines of issues -/

/-- The issues of a review have numbers of lines that are there. -/
theorem Reviewer.hasLine_of_mem_issues {preset : Preset} {config : Config} {text : List Char}
    {dialect : Dialect} :
    ∀ issue ∈ (review ⟨preset.configured config, Intent.describe, config⟩ text dialect).issues,
      ∀ number, issue.line = some number → (Snippet.mk text dialect).HasLine number := by
  refine forall_mem_issues (fun _ _ h => h) _ text dialect ?_
  intro rule hrule happlies issue hissue number hnumber
  obtain ⟨template, htemplate, rfl⟩ := List.mem_map.mp (List.mem_filter.mp hrule).1
  obtain ⟨kind, -, -, hfits⟩ :=
    template.conforms_build htemplate _ ⟨text, dialect⟩ happlies issue hissue
  exact hfits.line number hnumber

namespace CommandLine

/-! ## Outcomes -/

/-- A run that fails and shows nothing. -/
def Refused (outcome : Outcome) : Prop :=
  outcome.code = 1 ∧ outcome.output = ""

theorem refused_ofFailure (failure : Failure) (verbose : Bool) :
    Refused ((Outcome.ofFailure failure).settle verbose) :=
  ⟨rfl, rfl⟩

/-- A run that shows a report on a snippet in a format. -/
structure Shows (format : Format) (snippet : Snippet) (report : Report) (outcome : Outcome) :
    Prop where
  /-- The exit code is one if there is an error, and zero if not, in any format. -/
  code : outcome.code = if ∃ issue ∈ report.issues, issue.severity = .error then 1 else 0
  /-- The JSON form is an object with the summary, the dialect and all issues in their order; and
  it is read as that object, and its items as the issues, if 64 bits hold the numbers of lines. -/
  json : format = .json →
    let items := report.issues.map Wire.encodeIssue
    let data : Value := .object
      [("summary", .string report.summary), ("language", .string snippet.dialect.name),
       ("issues", .array items)]
    outcome.output = Json.renderIndented data ++ "\n" ∧
    (snippet.lines.length < 2 ^ 64 → Json.parse? outcome.output = some data ∧
      Wire.decodeItems Wire.decodeIssue items = .ok report.issues)
  /-- The text form has a line for each issue, numbered from one in their order, between a heading
  and a footer; the footer of a report with issues counts them by severity, and the counts add up
  to their number. -/
  text : format = .text →
    Text.lines outcome.output.toList =
      (Display.textLines snippet.dialect report).map String.toList ++ [[]] ∧
    report.count .error + report.count .warning + report.count .info = report.issues.length

theorem Shows.settle {format : Format} {snippet : Snippet} {report : Report} {outcome : Outcome}
    (h : Shows format snippet report outcome) (verbose : Bool) :
    Shows format snippet report (outcome.settle verbose) :=
  ⟨h.code, h.json, h.text⟩

/-- What is shown of an unbroken report with lines that are there. -/
theorem shows_shown (format : Format) (reviewer : Reviewer) (snippet : Snippet)
    (hunbroken : (reviewer.review snippet.text snippet.dialect).IsUnbroken)
    (hlines : ∀ issue ∈ (reviewer.review snippet.text snippet.dialect).issues,
      ∀ number, issue.line = some number → snippet.HasLine number) :
    Shows format snippet (reviewer.review snippet.text snippet.dialect)
      (CheckOptions.shown format reviewer snippet) where
  code := by
    simp [CheckOptions.shown, Report.hasErrors]
  json := by
    rintro rfl items data
    refine ⟨rfl, fun hlength => ?_⟩
    have hfit : Wire.LineNumbersFit (reviewer.review snippet.text snippet.dialect).issues :=
      fun issue hissue number hnumber =>
        Nat.lt_of_le_of_lt (hlines issue hissue number hnumber).2 hlength
    exact ⟨Display.parse?_json snippet.dialect _ hfit,
      Wire.decodeItems_map _ fun issue hissue =>
        Wire.decodeIssue_encodeIssue issue (hfit issue hissue)⟩
  text := by
    rintro rfl
    exact ⟨Display.lines_text snippet.dialect hunbroken, Report.count_add_count_add_count _⟩

/-! ## Runs -/

theorem override_eq (options : CheckOptions) (config : Config) :
    options.override config =
      { config with
        dialect := options.dialect.or config.dialect
        preset := (options.preset.map Preset.name).or config.preset } := by
  simp [CheckOptions.override]

section
variable {σ : Type} {world : World (StateM σ)} {words : List String}
  {start afterEnvironment afterLoad afterRead : σ} {inherited : Option String}
  {invocation : Invocation} {path : Option String} {options : CheckOptions}
  (henvironment : world.environment ConfigFile.pathVariable start = (inherited, afterEnvironment))
  (hparse : Invocation.parse inherited words = .ok invocation)
  (hcommand : invocation.command = .check path options)
include henvironment hparse hcommand

/-- The steps of a check: the environment, the configuration, and the text. -/
theorem run_eq_outcome {loaded : Except Failure Config} {read : Except Failure (List Char)}
    (hload : ConfigFile.load world invocation.config afterEnvironment = (loaded, afterLoad))
    (hread : readText world path afterLoad = (read, afterRead)) :
    (run world words start).1 =
      (match loaded, read with
        | .error failure, _ => Outcome.ofFailure failure
        | .ok _, .error failure => .ofFailure failure
        | .ok config, .ok text => options.outcome config text).settle invocation.verbose := by
  cases loaded with
  | error failure =>
    simp only [run, Invocation.run, Command.run, runCheck, bind, StateT.bind, henvironment, hparse,
      hcommand, hload]
    rfl
  | ok config =>
    cases read with
    | error failure | ok text =>
      simp only [run, Invocation.run, Command.run, runCheck, bind, StateT.bind, henvironment,
        hparse, hcommand, hload, hread]
      rfl

end

/-- A blank text is no failure: nothing is shown, whatever the preset. -/
theorem outcome_of_isBlank (options : CheckOptions) (config : Config) {text : List Char}
    (h : isBlank text = true) :
    (options.outcome config text).code = 0 ∧ (options.outcome config text).output = "" := by
  simp [CheckOptions.outcome, h]

end CommandLine
end LineLint
