import LineLint.Rule.Catalog

/-! # Presets

A preset is a choice of rules from the catalog.
-/
namespace LineLint

/-- A choice of rules. -/
inductive Preset where
  /-- All rules. -/
  | full
  /-- The rules made for one dialect. -/
  | rulesOnly
  /-- Long lines and what endangers correctness. -/
  | minimal
  deriving DecidableEq, Repr

/-- A text that names no preset. -/
structure UnknownPreset where
  /-- The text, as it was given. -/
  spelling : String
  deriving DecidableEq, Repr

/-- The wording of the error. -/
def UnknownPreset.message (error : UnknownPreset) : String :=
  "unknown preset `" ++ error.spelling ++ "` (expected full, rules-only, or minimal)"

namespace Preset

/-- All presets. -/
def all : List Preset :=
  [full, rulesOnly, minimal]

/-- The name of a preset. -/
def name : Preset → String
  | full => "full"
  | rulesOnly => "rules-only"
  | minimal => "minimal"

/-- The spellings of a preset, in small letters. -/
def spellings : Preset → List String
  | full => ["full", ""]
  | rulesOnly => ["rules-only", "rules_only", "rules"]
  | minimal => ["minimal"]

/-- Reads the name of a preset in any of its spellings. -/
def parse (text : String) : Except UnknownPreset Preset :=
  match all.find? fun preset => preset.spellings.contains (Dialect.normalize text) with
  | some preset => .ok preset
  | none => .error ⟨text⟩

/-- The rules of the smallest preset. -/
def minimalNames : List String :=
  ["CSharp.LongLine", "VBNet.MissingEnd", "SQL.MissingWhere"]

/-- Whether a preset takes a rule. -/
def takes (preset : Preset) (rule : Rule) : Bool :=
  match preset with
  | full => true
  | rulesOnly => rule.family == .dialect
  | minimal => minimalNames.contains rule.name

/-- The rules of a preset with the thresholds of a configuration. -/
def configured (preset : Preset) (config : Config) : List Rule :=
  (Catalog.configured config).filter preset.takes

/-- The rules of a preset with their own thresholds. -/
def rules (preset : Preset) : List Rule :=
  preset.configured .unset

theorem parse_name (preset : Preset) : parse preset.name = .ok preset := by
  cases preset <;> rfl

end Preset

/-- The preset that a configuration asks for; all rules if it asks for none. -/
def Config.parsePreset (config : Config) : Except UnknownPreset Preset :=
  match config.preset with
  | some text => Preset.parse text
  | none => .ok .full

/-- The rules that a configuration asks for. -/
def Config.chosenRules (config : Config) : Except UnknownPreset (List Rule) :=
  config.parsePreset.map fun preset => preset.configured config

end LineLint
