import LineLint.Config
import LineLint.Rule.Branching
import LineLint.Rule.Line
import LineLint.Rule.MissingEnd
import LineLint.Rule.Naming
import LineLint.Rule.RepeatedLiteral
import LineLint.Rule.Structure

/-! # The catalog of rules

All rules, in the order in which their issues appear within a family.  A
template makes a rule from its thresholds, which a configuration supplies.
-/
namespace LineLint

/-- A rule that waits for its thresholds. -/
structure RuleTemplate where
  /-- The name of the rule. -/
  name : String
  /-- Makes the rule; each threshold is asked for by its key and its default. -/
  build : (String → Nat → Nat) → Rule

namespace Catalog

/-- All rules in their order. -/
def templates : List RuleTemplate :=
  [⟨"CSharp.LongLine", fun get =>
      .longLine (get "max_length" Rule.defaultMaxLength) .warning⟩,
   ⟨"CSharp.TODO", fun _ => .todo⟩,
   ⟨"CSharp.NestedIfs", fun get => .nestedIfs (get "max_ifs" Rule.defaultMaxIfs)⟩,
   ⟨"VBNet.GoTo", fun _ => .goto⟩,
   ⟨"VBNet.MissingEnd", fun _ => .missingEnd⟩,
   ⟨"SQL.SelectStar", fun _ => .selectStar⟩,
   ⟨"SQL.MissingWhere", fun _ => .missingWhere⟩,
   ⟨"SQL.NoLock", fun _ => .noLock⟩,
   ⟨"Naming.NonDescriptive", fun _ => .nonDescriptiveNames⟩,
   ⟨"Smell.DeepNesting", fun get => .deepNesting (get "max_depth" Rule.defaultMaxDepth)⟩,
   ⟨"Smell.LongParameterList", fun get =>
      .longParameterList (get "max_params" Rule.defaultMaxParams)⟩,
   ⟨"Smell.LargeStructure", fun get =>
      .largeStructure (get "max_lines" Rule.defaultMaxLines)
        (get "max_methods" Rule.defaultMaxMethods)⟩,
   ⟨"Smell.RepeatedLiteral", fun get =>
      .repeatedLiteral (get "min_lines" Rule.defaultMinLines)⟩]

/-- All rules with the thresholds of a configuration. -/
def configured (config : Config) : List Rule :=
  templates.map fun template => template.build (config.threshold template.name)

/-- All rules with their own thresholds. -/
def rules : List Rule :=
  configured .unset

/-- The rules made for a dialect. -/
def rulesFor (dialect : Dialect) : List Rule :=
  rules.filter fun rule => rule.appliesTo dialect

/-- A template makes rules of its name. -/
theorem name_build {template : RuleTemplate} (h : template ∈ templates)
    (get : String → Nat → Nat) : (template.build get).name = template.name := by
  simp only [templates, List.mem_cons, List.not_mem_nil, or_false] at h
  rcases h with h | h | h | h | h | h | h | h | h | h | h | h | h <;> subst h <;> rfl

end Catalog
end LineLint
