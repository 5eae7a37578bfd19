import LineLint.Proofs.Review.Schedule
import Mathlib.Data.List.Basic

/-! # The order of registration

A reviewer is given its rules in some order, and runs them family by family.  The
rules run as a stable sort by family would arrange them
(`Reviewer.schedule_eq_familySorted`): none is lost, none runs twice, and those of
one family stay in their order.  So it makes no difference how the rules of
different families are interleaved when they are registered
(`Reviewer.review_of_families_eq`).

A blank text is not shown to the rules, so what they would find on it is not
reported (`Reviewer.issues_ne_contributions_of_blank`).
-/
namespace LineLint
namespace Reviewer

/-- Whether the family of a rule does not run behind that of another. -/
def runsNoLater (rule other : Rule) : Bool :=
  rule.family.rank ≤ other.family.rank

/-- The rules in a stable order by family. -/
def familySorted (rules : List Rule) : List Rule :=
  rules.mergeSort runsNoLater

theorem runsNoLater_trans (a b c : Rule) (hab : runsNoLater a b = true)
    (hbc : runsNoLater b c = true) : runsNoLater a c = true := by
  simp only [runsNoLater, decide_eq_true_eq] at *
  exact Nat.le_trans hab hbc

theorem runsNoLater_total (a b : Rule) : (runsNoLater a b || runsNoLater b a) = true := by
  simp only [runsNoLater, Bool.or_eq_true, decide_eq_true_eq]
  exact Nat.le_total _ _

/-- Rules of one family are in order already. -/
theorem pairwise_runsNoLater_filter (family : Family) (rules : List Rule) :
    (rules.filter fun rule => rule.family == family).Pairwise
      fun rule later => runsNoLater rule later = true := by
  refine List.pairwise_of_forall_mem_list ?_
  intro rule hrule later hlater
  have hrule : rule.family = family := beq_iff_eq.mp (List.mem_filter.mp hrule).2
  have hlater : later.family = family := beq_iff_eq.mp (List.mem_filter.mp hlater).2
  simp only [runsNoLater, decide_eq_true_eq]
  exact Nat.le_of_eq (congrArg Family.rank (hrule.trans hlater.symm))

/-- **Sorting by family keeps the rules of each family, in their order.** -/
theorem filter_familySorted (family : Family) (rules : List Rule) :
    (familySorted rules).filter (fun rule => rule.family == family) =
      rules.filter fun rule => rule.family == family := by
  have hsublist : (rules.filter fun rule => rule.family == family).Sublist
      (familySorted rules) :=
    List.sublist_mergeSort runsNoLater_trans runsNoLater_total
      (pairwise_runsNoLater_filter family rules) List.filter_sublist
  have hfamily : (rules.filter fun rule => rule.family == family).Sublist
      ((familySorted rules).filter fun rule => rule.family == family) := by
    have hfilter := hsublist.filter fun rule => rule.family == family
    rwa [List.filter_filter, show (fun rule : Rule => rule.family == family &&
      rule.family == family) = fun rule => rule.family == family from
        funext fun rule => Bool.and_self _] at hfilter
  -- a permutation has equally many rules of the family
  have hlength := ((List.mergeSort_perm rules runsNoLater).filter
    fun rule => rule.family == family).length_eq
  exact (hfamily.eq_of_length hlength.symm).symm

/-- The rules that run are those of each family, in their order. -/
theorem schedule_congr {reviewer other : Reviewer}
    (h : ∀ family : Family, reviewer.rules.filter (fun rule => rule.family == family) =
      other.rules.filter fun rule => rule.family == family) :
    reviewer.schedule = other.schedule := by
  rw [schedule, schedule]
  exact List.flatMap_congr fun family _ => h family

/-- **The rules run as a stable sort by family arranges them.** -/
theorem schedule_eq_familySorted (reviewer : Reviewer) :
    reviewer.schedule = familySorted reviewer.rules := by
  let sorted : Reviewer := { reviewer with rules := familySorted reviewer.rules }
  have hsorted : sorted.rules.Pairwise fun a b => a.family.rank ≤ b.family.rank := by
    have hpairwise := List.pairwise_mergeSort runsNoLater_trans runsNoLater_total reviewer.rules
    exact hpairwise.imp fun h => of_decide_eq_true h
  calc reviewer.schedule
      = sorted.schedule :=
        schedule_congr fun family => (filter_familySorted family reviewer.rules).symm
    _ = familySorted reviewer.rules := schedule_eq_rules hsorted

/-- **How rules are interleaved when they are registered makes no difference.**  Two reviewers
with the same rules in each family, in the same order there, give the same reports; and the
issues of a text that is not blank are what the rules contribute in a stable order by family. -/
theorem review_of_families_eq {rules others : List Rule}
    (h : ∀ family : Family, rules.filter (fun rule => rule.family == family) =
      others.filter fun rule => rule.family == family)
    (summarize : Snippet → List Char) (config : Config) (text : List Char) (dialect : Dialect) :
    (Reviewer.mk rules summarize config).review text dialect =
        (Reviewer.mk others summarize config).review text dialect ∧
      ((Reviewer.mk rules summarize config).review text dialect).issues =
        if Text.isBlank text then []
        else (familySorted rules).flatMap fun rule =>
          if rule.appliesTo dialect && config.isEnabled rule.name then
            withSeverity (config.severityOf rule.name) (rule.check ⟨text, dialect⟩)
          else [] := by
  have hschedule : (Reviewer.mk rules summarize config).schedule =
      (Reviewer.mk others summarize config).schedule := schedule_congr h
  refine ⟨?_, ?_⟩
  · simp only [review, hschedule]
    rfl
  · simp only [review, schedule_eq_familySorted, Snippet.isBlank]
    split <;> rfl

/-- Five rules, one of them twice, in two orders. -/
theorem review_of_families_eq_shuffled :
    let rules : List Rule := [.repeatedLiteral 1, .todo, .nonDescriptiveNames,
      .longLine 3 .warning, .repeatedLiteral 1]
    let others : List Rule := [.nonDescriptiveNames, .repeatedLiteral 1, .repeatedLiteral 1,
      .todo, .longLine 3 .warning]
    let text := "int x = 7; // TODO".toList
    (∀ family : Family, rules.filter (fun rule => rule.family == family) =
      others.filter fun rule => rule.family == family) ∧
    (Reviewer.mk rules (fun _ => []) .unset).review text .csharp =
      (Reviewer.mk others (fun _ => []) .unset).review text .csharp ∧
    ((Reviewer.mk others (fun _ => []) .unset).review text .csharp).issues.map Issue.kind =
      ["CSharp.TODO", "CSharp.LongLine", "Naming.NonDescriptive", "Smell.RepeatedLiteral",
        "Smell.RepeatedLiteral"] := by
  intro rules others text
  have h : ∀ family : Family, rules.filter (fun rule => rule.family == family) =
      others.filter fun rule => rule.family == family := by
    intro family
    cases family <;> rfl
  exact ⟨h, (review_of_families_eq h (fun _ => []) .unset text .csharp).1, by decide⟩

/-- **A blank text gets no issues, whatever the rules find on it.** -/
theorem issues_ne_contributions_of_blank :
    let reviewer : Reviewer := ⟨[.longLine 0 .warning], fun _ => [], .unset⟩
    (reviewer.review [' '] .csharp).issues ≠
      (familySorted reviewer.rules).flatMap (reviewer.contribution ⟨[' '], .csharp⟩) := by
  intro reviewer
  have hsorted : familySorted reviewer.rules = reviewer.rules := List.mergeSort_singleton _
  rw [hsorted]
  decide

end Reviewer
end LineLint
