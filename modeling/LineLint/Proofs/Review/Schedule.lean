import LineLint.Review

/-! # The order in which rules run

A reviewer runs its rules family by family.  Where the rules are listed in the
order of their families to begin with, as they are in the catalog and so in
every preset, they run as listed (`Reviewer.schedule_eq_rules`).

What a template leaves open are thresholds: its rules share name, family and
dialects (`RuleTemplate.build_eq`), so the thresholds of a configuration do not
decide which rules run.
-/
namespace LineLint

/-- The position of a family in the order in which families run. -/
def Family.rank : Family → Nat
  | dialect => 0
  | naming => 1
  | smell => 2

/-- The rule of a template with its own thresholds. -/
def RuleTemplate.plain (template : RuleTemplate) : Rule :=
  template.build fun _ default => default

/-- Name, family and dialects of a rule do not depend on its thresholds. -/
theorem RuleTemplate.build_eq {template : RuleTemplate} (h : template ∈ Catalog.templates)
    (get : String → Nat → Nat) :
    (template.build get).name = template.name ∧
      (template.build get).family = template.plain.family ∧
      (template.build get).appliesTo = template.plain.appliesTo := by
  simp only [Catalog.templates, List.mem_cons, List.not_mem_nil, or_false] at h
  rcases h with h | h | h | h | h | h | h | h | h | h | h | h | h <;> subst h <;>
    exact ⟨rfl, rfl, rfl⟩

namespace Catalog

/-- The catalog lists its rules in the order of their families. -/
theorem pairwise_rank_templates :
    templates.Pairwise fun a b => a.plain.family.rank ≤ b.plain.family.rank := by
  decide

/-- No two rules of the catalog have the same name. -/
theorem nodup_names : (templates.map RuleTemplate.name).Nodup := by
  decide

end Catalog

namespace Preset

/-- The templates of the rules that a preset takes. -/
def templates (preset : Preset) : List RuleTemplate :=
  Catalog.templates.filter fun template => preset.takes template.plain

theorem takes_build (preset : Preset) {template : RuleTemplate}
    (h : template ∈ Catalog.templates) (get : String → Nat → Nat) :
    preset.takes (template.build get) = preset.takes template.plain := by
  obtain ⟨hname, hfamily, -⟩ := template.build_eq h get
  obtain ⟨hplain, -, -⟩ := template.build_eq h fun _ default => default
  cases preset with
  | full => rfl
  | rulesOnly => simp only [takes, hfamily]
  | minimal =>
    simp only [takes, hname]
    rw [RuleTemplate.plain, hplain]

theorem mem_catalog {preset : Preset} {template : RuleTemplate}
    (h : template ∈ preset.templates) : template ∈ Catalog.templates :=
  (List.mem_filter.mp h).1

/-- A preset takes the same rules whatever their thresholds. -/
theorem configured_eq (preset : Preset) (config : Config) :
    preset.configured config =
      preset.templates.map fun template => template.build (config.threshold template.name) := by
  rw [configured, Catalog.configured, List.filter_map, templates]
  refine congrArg (List.map _) (List.filter_congr ?_)
  intro template h
  exact preset.takes_build h _

/-- The rules of a preset are listed in the order of their families. -/
theorem pairwise_rank_configured (preset : Preset) (config : Config) :
    (preset.configured config).Pairwise fun a b => a.family.rank ≤ b.family.rank := by
  rw [configured_eq, List.pairwise_map]
  have hplain : preset.templates.Pairwise fun a b => a.plain.family.rank ≤ b.plain.family.rank :=
    Catalog.pairwise_rank_templates.filter _
  refine hplain.imp_of_mem ?_
  intro a b ha hb hab
  rw [(a.build_eq (mem_catalog ha) _).2.1, (b.build_eq (mem_catalog hb) _).2.1]
  exact hab

end Preset

namespace Reviewer

/-- The standard reviewer has the rules that its configuration asks for. -/
theorem rules_standard : standard.rules = Preset.full.configured standard.config := rfl

theorem filter_family_eq_nil {family : Family} {rules : List Rule}
    (h : ∀ rule ∈ rules, family.rank < rule.family.rank) :
    rules.filter (fun rule => rule.family == family) = [] := by
  refine List.filter_eq_nil_iff.mpr ?_
  intro rule hr heq
  have := h rule hr
  rw [beq_iff_eq.mp heq] at this
  exact Nat.lt_irrefl _ this

/-- **Rules that are listed in the order of their families run as listed.** -/
theorem schedule_eq_rules {reviewer : Reviewer}
    (h : reviewer.rules.Pairwise fun a b => a.family.rank ≤ b.family.rank) :
    reviewer.schedule = reviewer.rules := by
  obtain ⟨rules, summarize, config⟩ := reviewer
  simp only [schedule, Family.all, List.flatMap_cons, List.flatMap_nil, List.append_nil] at h ⊢
  induction rules with
  | nil => rfl
  | cons rule rules ih =>
    obtain ⟨hfirst, hrest⟩ := List.pairwise_cons.mp h
    have ih := ih hrest
    -- the families in front of that of `rule` have no rules further down
    have hnone : ∀ family : Family, family.rank < rule.family.rank →
        rules.filter (fun rule => rule.family == family) = [] := fun family hlt =>
      filter_family_eq_nil fun later hl => Nat.lt_of_lt_of_le hlt (hfirst later hl)
    cases hfamily : rule.family with
    | dialect => simpa [hfamily] using ih
    | naming =>
      rw [hfamily] at hnone
      have hd := hnone .dialect (by decide)
      rw [hd] at ih
      simpa [hfamily, hd] using ih
    | smell =>
      rw [hfamily] at hnone
      have hd := hnone .dialect (by decide)
      have hn := hnone .naming (by decide)
      rw [hd, hn] at ih
      simpa [hfamily, hd, hn] using ih

end Reviewer
end LineLint
