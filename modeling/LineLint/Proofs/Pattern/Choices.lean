import LineLint.Pattern.Vocabulary
import LineLint.Proofs.Pattern.Progress

/-! # Alternatives and optional endings

One keyword of a list is reached where one of the keywords is (`Pattern.mem_reach_words`), and
a pattern with an optional ending matches where it does without, and goes on with the
ending if there is one (`Pattern.head?_reach_optional`).  What the ending does not name
reads the same with it and without (`Pattern.at?_optional`).
-/
namespace LineLint

namespace Pattern
variable {p q : Pattern}

theorem mem_reach_anyOf {ps : List Pattern} {r s : Reached} :
    s ∈ (anyOf ps).reach r ↔ ∃ p ∈ ps, s ∈ p.reach r := by
  fun_induction anyOf ps with
  | case1 =>
    constructor
    · intro h
      simp only [reach] at h
      split at h <;> simp at h
    · rintro ⟨p, hp, -⟩
      cases hp
  | case2 p => simp
  | case3 p ps _ ih => simp [reach_orElse, ih]

theorem mem_reach_words {keywords : List String} {r s : Reached} :
    s ∈ (words keywords).reach r ↔ ∃ keyword ∈ keywords, s ∈ (word keyword).reach r := by
  rw [words, mem_reach_anyOf]
  constructor
  · rintro ⟨p, hp, hs⟩
    obtain ⟨keyword, hkeyword, rfl⟩ := List.mem_map.mp hp
    exact ⟨keyword, hkeyword, hs⟩
  · rintro ⟨keyword, hkeyword, hs⟩
    exact ⟨word keyword, List.mem_map_of_mem hkeyword, hs⟩

/-- More keywords reach more. -/
theorem reach_words_subset {keywords more : List String} (h : keywords ⊆ more) (r : Reached) :
    (words keywords).reach r ⊆ (words more).reach r := by
  intro s hs
  obtain ⟨keyword, hkeyword, hs⟩ := mem_reach_words.mp hs
  exact mem_reach_words.mpr ⟨keyword, h hkeyword, hs⟩

/-- Where a pattern matches, it reaches some place. -/
theorem at?_isSome_iff {place : Cursor} :
    (p.at? place).isSome = true ↔ ∃ s, s ∈ p.reach ⟨place, []⟩ := by
  rw [at?, Option.isSome_map, List.isSome_head?]
  exact ⟨List.exists_mem_of_ne_nil _, fun ⟨s, hs⟩ => List.ne_nil_of_mem hs⟩

/-! ## Optional endings -/

/-- Whether a pattern gives no stretch a name. -/
def omits (part : Part) : Pattern → Bool
  | both p q | either p q => p.omits part && q.omits part
  | repeated p => p.omits part
  | named other p => other != part && p.omits part
  | here | char _ | many _ | run _ | edge | textStart | textEnd => true

/-- A stretch that a pattern does not name stays what it is. -/
theorem find?_parts_of_omits {part : Part} (hp : p.omits part = true) {r s : Reached}
    (hs : s ∈ p.reach r) : s.parts.find? (·.1 == part) = r.parts.find? (·.1 == part) := by
  induction p generalizing r s with
  | here | run =>
    rw [reach, List.mem_singleton] at hs
    rw [hs]
  | char accepts =>
    simp only [reach] at hs
    split at hs
    · split at hs
      · rw [List.mem_singleton] at hs
        rw [hs]
      · cases hs
    · cases hs
  | many accepts =>
    obtain ⟨place, -, rfl⟩ := List.mem_map.mp hs
    rfl
  | edge | textStart | textEnd =>
    simp only [reach] at hs
    split at hs
    · rw [List.mem_singleton] at hs
      rw [hs]
    · cases hs
  | both p q ihp ihq =>
    obtain ⟨hp, hq⟩ := Bool.and_eq_true_iff.mp hp
    obtain ⟨t, ht, hs⟩ := List.mem_flatMap.mp hs
    exact (ihq hq hs).trans (ihp hp ht)
  | either p q ihp ihq =>
    obtain ⟨hp, hq⟩ := Bool.and_eq_true_iff.mp hp
    exact (List.mem_append.mp hs).elim (ihp hp) (ihq hq)
  | repeated p ih =>
    exact of_mem_iterate (I := fun t => t.parts.find? (·.1 == part) = r.parts.find? (·.1 == part))
      (fun t u hu ht => (ih hp hu).trans ht) hs rfl
  | named other p ih =>
    obtain ⟨hne, hp⟩ := Bool.and_eq_true_iff.mp hp
    obtain ⟨t, ht, rfl⟩ := List.mem_map.mp hs
    have hother : (other == part) = false := by simpa using hne
    rw [List.find?_cons, hother]
    exact ih hp ht

/-- The preferred match goes on with the ending if it can. -/
theorem head?_reach_optional (r : Reached) :
    ((p ++ optional q).reach r).head? =
      (p.reach r).head?.map fun s => (q.reach s).head?.getD s := by
  have hoptional : ∀ s, (optional q).reach s = q.reach s ++ [s] := fun _ => rfl
  rw [reach_append]
  cases p.reach r with
  | nil => rfl
  | cons s rest =>
    rw [List.flatMap_cons, hoptional, List.head?_cons, Option.map_some]
    cases q.reach s <;> rfl

/-- **An ending that is always reached does not change whether there is a match**, nor what is read
under names that it does not give. -/
theorem at?_ending {α : Type} {f : Match → α} (hq : ∀ s, q.reach s ≠ [])
    (hf : ∀ m m' : Match, (∀ part, q.omits part = true → m.part part = m'.part part) → f m = f m')
    (place : Cursor) : ((p ++ q).at? place).map f = (p.at? place).map f := by
  rw [at?, reach_append, at?]
  cases p.reach ⟨place, []⟩ with
  | nil => rfl
  | cons s rest =>
    obtain ⟨t, more, ht⟩ := List.exists_cons_of_ne_nil (hq s)
    rw [List.flatMap_cons, ht]
    refine congrArg some (hf _ _ fun part hpart => ?_)
    have hparts := find?_parts_of_omits hpart (ht ▸ List.mem_cons_self)
    simp only [Match.part, Match.part?, hparts]

theorem reach_optional_ne_nil (s : Reached) : (optional q).reach s ≠ [] :=
  List.append_ne_nil_of_right_ne_nil _ (List.cons_ne_nil s [])

/-- An optional ending does not change what is read under a name that it does not give. -/
theorem at?_optional {part : Part} (hq : q.omits part = true) (place : Cursor) :
    ((p ++ optional q).at? place).map (·.part part) = (p.at? place).map (·.part part) :=
  at?_ending reach_optional_ne_nil (fun _ _ h => h part (Bool.and_eq_true_iff.mpr ⟨hq, rfl⟩)) place

end Pattern
end LineLint
