import LineLint.Proofs.Review.Schedule
import Mathlib.Data.List.Basic

/-! # What a configuration can change

The issues of a review fall into segments, one for each rule that the preset
takes and that is made for the dialect, in the order of the catalog.  A segment
is made from the snippet and the settings of its own rule, and from nothing else
that is configured (`RuleTemplate.segment`).  So two configurations that differ
in the settings of one rule give reports that differ in the segment of that
rule, and nowhere else (`Reviewer.review_local`).

A blank text is not inspected at all, which leaves every segment empty; the
issues that the rules would find on it do not occur
(`Reviewer.issues_ne_emissions_of_blank`).
-/
namespace LineLint

/-- The issues that a rule finds with the thresholds of its settings, at the severity that is
set for it. -/
def RuleTemplate.emission (template : RuleTemplate) (settings : RuleSettings)
    (snippet : Snippet) : List Issue :=
  Reviewer.withSeverity settings.severity ((template.build settings.threshold).check snippet)

/-- What a rule contributes to a review under its settings: nothing if it is switched off or
the text is blank. -/
def RuleTemplate.segment (template : RuleTemplate) (settings : RuleSettings)
    (snippet : Snippet) : List Issue :=
  if settings.enabled.getD true && !snippet.isBlank then template.emission settings snippet
  else []

namespace Preset

/-- The templates of the rules that a preset takes and that are made for a dialect. -/
def applicable (preset : Preset) (dialect : Dialect) : List RuleTemplate :=
  preset.templates.filter fun template => template.plain.appliesTo dialect

/-- The segment of the rule of a given name; empty if the rule does not run. -/
def segmentOf (preset : Preset) (name : String) (settings : RuleSettings) (snippet : Snippet) :
    List Issue :=
  ((preset.applicable snippet.dialect).filter fun template => template.name == name).flatMap
    fun template => template.segment settings snippet

theorem pairwise_rank_applicable (preset : Preset) (dialect : Dialect) :
    (preset.applicable dialect).Pairwise fun a b => a.plain.family.rank ≤ b.plain.family.rank :=
  (Catalog.pairwise_rank_templates.filter _).filter _

theorem nodup_applicable (preset : Preset) (dialect : Dialect) :
    ((preset.applicable dialect).map RuleTemplate.name).Nodup :=
  Catalog.nodup_names.sublist
    ((List.filter_sublist.trans List.filter_sublist).map RuleTemplate.name)

end Preset

namespace Reviewer

/-- What a rule of the catalog contributes to the review of a text that is not blank. -/
theorem contribution_build (reviewer : Reviewer) {template : RuleTemplate}
    (h : template ∈ Catalog.templates) {snippet : Snippet} (hblank : snippet.isBlank = false) :
    reviewer.contribution snippet
        (template.build (reviewer.config.threshold template.name)) =
      if template.plain.appliesTo snippet.dialect then
        template.segment (reviewer.config.settings template.name) snippet
      else [] := by
  obtain ⟨hname, -, happlies⟩ :=
    template.build_eq h (reviewer.config.threshold template.name)
  rw [contribution, admits, hname, happlies]
  cases template.plain.appliesTo snippet.dialect with
  | false => rfl
  | true =>
    simp only [Bool.true_and, RuleTemplate.segment, hblank, Bool.not_false, Bool.and_true, if_true]
    rfl

theorem flatMap_filter {α β : Type} (p : α → Bool) (f : α → List β) (l : List α) :
    (l.filter p).flatMap f = l.flatMap fun a => if p a then f a else [] := by
  induction l with
  | nil => rfl
  | cons a l ih =>
    rw [List.flatMap_cons, ← ih, List.filter_cons]
    cases p a <;> rfl

/-- **The issues of a review are the segments of the rules that run**, in order. -/
theorem issues_eq_segments {reviewer : Reviewer} {preset : Preset}
    (hrules : reviewer.rules = preset.configured reviewer.config) (text : List Char)
    (dialect : Dialect) :
    (reviewer.review text dialect).issues =
      (preset.applicable dialect).flatMap fun template =>
        template.segment (reviewer.config.settings template.name) ⟨text, dialect⟩ := by
  cases hblank : (Snippet.mk text dialect).isBlank with
  | true => simp [review, RuleTemplate.segment, hblank]
  | false =>
    have hrun : reviewer.schedule = reviewer.rules :=
      schedule_eq_rules (by rw [hrules]; exact preset.pairwise_rank_configured _)
    calc (reviewer.review text dialect).issues
        = reviewer.rules.flatMap (reviewer.contribution ⟨text, dialect⟩) := by
          simp [review, hblank, hrun]
      _ = preset.templates.flatMap fun template =>
            reviewer.contribution ⟨text, dialect⟩
              (template.build (reviewer.config.threshold template.name)) := by
          rw [hrules, preset.configured_eq, List.flatMap_map]
      _ = preset.templates.flatMap fun template =>
            if template.plain.appliesTo dialect then
              template.segment (reviewer.config.settings template.name) ⟨text, dialect⟩
            else [] :=
          List.flatMap_congr fun template ht =>
            reviewer.contribution_build (Preset.mem_catalog ht) hblank
      _ = (preset.applicable dialect).flatMap fun template =>
            template.segment (reviewer.config.settings template.name) ⟨text, dialect⟩ :=
          (flatMap_filter _ _ _).symm

/-- Two ways of making segments that agree on all rules but those of one name give the same
issues in front of the segments of that name and behind them. -/
theorem exists_around {templates : List RuleTemplate} {name : String}
    (hnodup : (templates.map RuleTemplate.name).Nodup)
    {make remake : RuleTemplate → List Issue}
    (h : ∀ template ∈ templates, template.name ≠ name → remake template = make template) :
    ∃ front back,
      templates.flatMap make =
        front ++ (templates.filter fun template => template.name == name).flatMap make ++ back ∧
      templates.flatMap remake =
        front ++ (templates.filter fun template => template.name == name).flatMap remake ++
          back := by
  induction templates with
  | nil => exact ⟨[], [], rfl, rfl⟩
  | cons template templates ih =>
    rw [List.map_cons, List.nodup_cons] at hnodup
    have hrest : ∀ other ∈ templates, other.name ≠ name → remake other = make other :=
      fun other ho => h other (List.mem_cons_of_mem _ ho)
    by_cases hname : template.name = name
    · -- no other rule has this name, so all that follows is made the same way
      have hother : ∀ other ∈ templates, other.name ≠ name := by
        intro other ho heq
        exact hnodup.1 (hname.trans heq.symm ▸ List.mem_map_of_mem ho)
      have hfilter : templates.filter (fun other => other.name == name) = [] :=
        List.filter_eq_nil_iff.mpr fun other ho => by simp [hother other ho]
      refine ⟨[], templates.flatMap make, ?_, ?_⟩
      · simp [hname, hfilter]
      · have hback : templates.flatMap remake = templates.flatMap make :=
          List.flatMap_congr fun other ho => hrest other ho (hother other ho)
        simp [hname, hfilter, hback]
    · obtain ⟨front, back, hmake, hremake⟩ := ih hnodup.2 hrest
      refine ⟨make template ++ front, back, ?_, ?_⟩
      · simp [hname, hmake]
      · simp [hname, hremake, h template List.mem_cons_self hname]

theorem ofConfig_eq {config : Config} {preset : Preset} (h : config.parsePreset = .ok preset) :
    ofConfig config = .ok ⟨preset.configured config, Intent.describe, config⟩ := by
  rw [ofConfig, Config.chosenRules, h]
  rfl

/-- **Configurations work locally.**  The issues are the segments of the rules that run, each
made from the snippet and the settings of its rule; and a configuration that differs in the
settings of one rule only gives the same summary, and the same issues around the segment of
that rule. -/
theorem review_local {config : Config} {preset : Preset} (h : config.parsePreset = .ok preset)
    (text : List Char) (dialect : Dialect) :
    ∃ reviewer, ofConfig config = .ok reviewer ∧
      (reviewer.review text dialect).issues =
        (preset.applicable dialect).flatMap (fun template =>
          template.segment (config.settings template.name) ⟨text, dialect⟩) ∧
      (preset.applicable dialect).Pairwise
        (fun earlier later => earlier.plain.family.rank ≤ later.plain.family.rank) ∧
      ∀ (other : Config) (name : String), other.preset = config.preset →
        (∀ rule, rule ≠ name → other.rules.get? rule = config.rules.get? rule) →
        ∃ changed, ofConfig other = .ok changed ∧
          (changed.review text dialect).summary = (reviewer.review text dialect).summary ∧
          ∃ front back,
            (reviewer.review text dialect).issues =
              front ++ preset.segmentOf name (config.settings name) ⟨text, dialect⟩ ++ back ∧
            (changed.review text dialect).issues =
              front ++ preset.segmentOf name (other.settings name) ⟨text, dialect⟩ ++ back := by
  refine ⟨_, ofConfig_eq h, issues_eq_segments rfl text dialect,
    preset.pairwise_rank_applicable dialect, ?_⟩
  intro other name hpreset hagree
  have hother : other.parsePreset = .ok preset := by
    rw [Config.parsePreset, hpreset]
    exact h
  refine ⟨_, ofConfig_eq hother, ?_, ?_⟩
  · cases hblank : (Snippet.mk text dialect).isBlank <;> simp [review, hblank]
  · rw [issues_eq_segments rfl, issues_eq_segments rfl]
    have hsame : ∀ template ∈ preset.applicable dialect, template.name ≠ name →
        template.segment (other.settings template.name) ⟨text, dialect⟩ =
          template.segment (config.settings template.name) ⟨text, dialect⟩ := by
      intro template _ hne
      rw [Config.settings, hagree template.name hne, Config.settings]
    obtain ⟨front, back, hmake, hremake⟩ :=
      exists_around (preset.nodup_applicable dialect) hsame
    have hsegment : ∀ settings : String → RuleSettings,
        ((preset.applicable dialect).filter fun template => template.name == name).flatMap
            (fun template => template.segment (settings template.name) ⟨text, dialect⟩) =
          preset.segmentOf name (settings name) ⟨text, dialect⟩ := by
      intro settings
      refine List.flatMap_congr fun template ht => ?_
      rw [beq_iff_eq.mp (List.mem_filter.mp ht).2]
    rw [hsegment] at hmake hremake
    exact ⟨front, back, hmake, hremake⟩

/-- A table for long lines: nothing else of the review changes. -/
theorem review_local_of_longLine :
    let config : Config := ⟨some " Minimal", none, []⟩
    let other : Config := ⟨some " Minimal", none,
      [("CSharp.LongLine", ⟨none, some .error, [("max_length", .int 3)]⟩)]⟩
    config.parsePreset = .ok .minimal ∧ other.preset = config.preset ∧
      (∀ rule, rule ≠ "CSharp.LongLine" → other.rules.get? rule = config.rules.get? rule) ∧
      ∃ reviewer changed, ofConfig config = .ok reviewer ∧ ofConfig other = .ok changed ∧
        (reviewer.review "a;b;".toList .csharp).issues = [] ∧
        (changed.review "a;b;".toList .csharp).issues.map
          (fun issue => (issue.line, issue.severity)) = [(some 1, .error)] := by
  intro config other
  have hpreset : config.parsePreset = .ok .minimal := by decide +kernel
  have hrules : ∀ rule, rule ≠ "CSharp.LongLine" →
      other.rules.get? rule = config.rules.get? rule := by
    intro rule hne
    simp [other, config, Data.Table.get?, hne.symm]
  obtain ⟨reviewer, hreviewer, hissues, -, hlocal⟩ := review_local hpreset "a;b;".toList .csharp
  obtain ⟨changed, hchanged, -, front, back, hold, hnew⟩ :=
    hlocal other "CSharp.LongLine" rfl hrules
  have hnone : (reviewer.review "a;b;".toList .csharp).issues = [] := by
    rw [hissues]
    decide +kernel
  refine ⟨hpreset, rfl, hrules, reviewer, changed, hreviewer, hchanged, hnone, ?_⟩
  -- what stands around the segment of the rule is empty in both reviews
  rw [hold] at hnone
  simp only [List.append_eq_nil_iff] at hnone
  rw [hnew, hnone.1.1, hnone.2]
  decide +kernel

/-- **A blank text gets no issues, even if a rule finds some on it.** -/
theorem issues_ne_emissions_of_blank :
    let config : Config :=
      ⟨none, none, [("CSharp.LongLine", ⟨none, none, [("max_length", .int 0)]⟩)]⟩
    config.parsePreset = .ok .full ∧
      ∃ reviewer, ofConfig config = .ok reviewer ∧
        (reviewer.review [' '] .csharp).issues ≠
          (Preset.full.applicable .csharp).flatMap fun template =>
            if (config.settings template.name).enabled.getD true then
              template.emission (config.settings template.name) ⟨[' '], .csharp⟩
            else [] := by
  intro config
  refine ⟨rfl, _, ofConfig_eq rfl, ?_⟩
  decide +kernel

end Reviewer
end LineLint
