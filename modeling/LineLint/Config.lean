import LineLint.Data.Table
import LineLint.Data.Value
import LineLint.Dialect
import LineLint.Severity

/-! # Configurations

A configuration may name a preset, force a dialect, and hold a table of settings
for each rule.  The settings of a rule switch it off, replace the severity of
its issues, and set its thresholds.
-/
namespace LineLint

open Data

/-- The settings of one rule. -/
structure RuleSettings where
  /-- Whether the rule runs; it does unless switched off. -/
  enabled : Option Bool
  /-- The severity that all issues of the rule get. -/
  severity : Option Severity
  /-- Thresholds and whatever else is set for the rule. -/
  options : Table Value

/-- What is configured for a review. -/
structure Config where
  /-- Name of the preset, as written. -/
  preset : Option String
  /-- The dialect to review snippets as. -/
  dialect : Option Dialect
  /-- Settings by the name of the rule. -/
  rules : Table RuleSettings

namespace RuleSettings

/-- The settings of a rule of which nothing is said. -/
def unset : RuleSettings :=
  ⟨none, none, []⟩

/-- A whole number that is set and not negative, or else the default. -/
def threshold (settings : RuleSettings) (key : String) (default : Nat) : Nat :=
  match settings.options.get? key with
  | some (.int value) => if 0 ≤ value then value.toNat else default
  | _ => default

end RuleSettings

namespace Config

/-- The configuration that changes nothing. -/
def unset : Config :=
  ⟨none, none, []⟩

/-- The settings of a rule; those of an absent table leave everything as it is. -/
def settings (config : Config) (rule : String) : RuleSettings :=
  (config.rules.get? rule).getD .unset

/-- Whether there is a table for a rule. -/
def mentions (config : Config) (rule : String) : Bool :=
  (config.rules.get? rule).isSome

/-- Whether a rule runs. -/
def isEnabled (config : Config) (rule : String) : Bool :=
  (config.settings rule).enabled.getD true

/-- The severity that the issues of a rule get. -/
def severityOf (config : Config) (rule : String) : Option Severity :=
  (config.settings rule).severity

/-- A threshold of a rule. -/
def threshold (config : Config) (rule key : String) (default : Nat) : Nat :=
  (config.settings rule).threshold key default

end Config
end LineLint
