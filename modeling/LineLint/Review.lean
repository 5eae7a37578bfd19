import LineLint.Detection
import LineLint.Intent
import LineLint.Preset

/-! # Reviewing snippets

A reviewer runs its rules family by family, and within a family in the order in
which it was given them; issues are never sorted afterwards.  The summary is
made apart from the rules.
-/
namespace LineLint

/-- What is needed for a review. -/
structure Reviewer where
  /-- The rules, in the order of registration. -/
  rules : List Rule
  /-- Describes what a snippet is for. -/
  summarize : Snippet → List Char
  /-- Settings of the rules. -/
  config : Config

namespace Reviewer

/-- Issues with the severity that is set for their rule. -/
def withSeverity (severity : Option Severity) (issues : List Issue) : List Issue :=
  match severity with
  | some severity => issues.map fun issue => { issue with severity := severity }
  | none => issues

/-- Whether a rule has a say on a snippet. -/
def admits (reviewer : Reviewer) (dialect : Dialect) (rule : Rule) : Bool :=
  rule.appliesTo dialect && reviewer.config.isEnabled rule.name

/-- The issues that one rule contributes. -/
def contribution (reviewer : Reviewer) (snippet : Snippet) (rule : Rule) : List Issue :=
  if reviewer.admits snippet.dialect rule then
    withSeverity (reviewer.config.severityOf rule.name) (rule.check snippet)
  else []

/-- The rules in the order in which they run. -/
def schedule (reviewer : Reviewer) : List Rule :=
  Family.all.flatMap fun family => reviewer.rules.filter fun rule => rule.family == family

/-- Reviews a text as written in a dialect.  A blank text gets no issues. -/
def review (reviewer : Reviewer) (text : List Char) (dialect : Dialect) : Report :=
  let snippet : Snippet := ⟨text, dialect⟩
  if snippet.isBlank then ⟨String.ofList Sentence.fallback, []⟩
  else
    { summary := String.ofList (Sentence.ofText (reviewer.summarize snippet))
      issues := reviewer.schedule.flatMap (reviewer.contribution snippet) }

/-- Reviews a text as written in the dialect of the configuration, or in the one detected. -/
def reviewDetected (reviewer : Reviewer) (text : List Char) : Report :=
  reviewer.review text (reviewer.config.dialect.getD (Detection.detect text))

/-- The reviewer that a configuration asks for. -/
def ofConfig (config : Config) : Except UnknownPreset Reviewer :=
  config.chosenRules.map fun rules => ⟨rules, Intent.describe, config⟩

/-- The reviewer with all rules and nothing configured. -/
def standard : Reviewer :=
  ⟨Preset.full.rules, Intent.describe, .unset⟩

end Reviewer

/-- Reviews a text with all rules and nothing configured. -/
def review (text : List Char) (dialect : Dialect) : Report :=
  Reviewer.standard.review text dialect

end LineLint
