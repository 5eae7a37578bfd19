import LineLint.Proofs.Checked.Matches
import LineLint.Proofs.Pattern.Choices
import Mathlib.Algebra.Group.Nat.Even
import Mathlib.Data.List.Pairwise

/-! # All matches of a text

A text is swept from left to right, and behind a match the sweep goes on where it stops.
So the matches that are found lie apart from each other (`Pattern.pairwise_allMatches`),
and a match that could start at a place of the text is passed over only if one that is
found covers this place (`Pattern.mem_allMatches_iff`).

For some patterns at most one match can cover the start of another one.  The matches of
such a pattern form chains, of which every other one is found, from the first one on
(`Pattern.mem_allMatches_iff_even`).

The first match is found by going past the texts in which none starts
(`Pattern.head?_allMatches`, `Pattern.findBehind_append_of_none`).
-/
namespace LineLint

/-- Whether a match reaches over the place where a later one starts. -/
def Match.Covers (earlier m : Match) : Prop :=
  earlier.offset < m.offset ∧ m.offset < earlier.offset + earlier.length

namespace Pattern
variable {p : Pattern} {before after text : List Char} {skip : Nat} {m : Match}

theorem offset_of_at? (h : p.at? ⟨before, after⟩ = some m) : m.offset = before.length := by
  rw [Match.offset, start_of_at? h]

/-! ## Matches lie apart -/

/-- No match starts where the sweep has passed. -/
theorem le_offset_of_mem (hm : m ∈ p.matchesBehind before skip after) :
    before.length + skip ≤ m.offset := by
  induction after generalizing before skip with
  | nil =>
    rw [matchesBehind] at hm
    split at hm
    · rename_i hskip
      rw [offset_of_at? (Option.mem_toList.mp hm), hskip]
      exact Nat.le_refl _
    · cases hm
  | cons c rest ih =>
    cases skip with
    | succ skip =>
      have hle := ih hm
      rw [List.length_cons] at hle
      omega
    | zero =>
      rw [matchesBehind] at hm
      cases hat : p.at? ⟨before, c :: rest⟩ with
      | none =>
        rw [hat] at hm
        have hle := ih hm
        rw [List.length_cons] at hle
        omega
      | some found =>
        rw [hat] at hm
        rcases List.mem_cons.mp hm with rfl | hm
        · rw [offset_of_at? hat]
          exact Nat.le_refl _
        · have hle := ih hm
          rw [List.length_cons] at hle
          omega

theorem pairwise_matchesBehind (before : List Char) (skip : Nat) (after : List Char) :
    (p.matchesBehind before skip after).Pairwise fun m later =>
      m.offset < later.offset ∧ m.offset + m.length ≤ later.offset := by
  induction after generalizing before skip with
  | nil =>
    rw [matchesBehind]
    split
    · cases p.at? ⟨before, []⟩ with
      | none => exact List.Pairwise.nil
      | some found => exact List.pairwise_singleton _ found
    · exact List.Pairwise.nil
  | cons c rest ih =>
    cases skip with
    | succ skip => exact ih (c :: before) skip
    | zero =>
      rw [matchesBehind]
      cases hat : p.at? ⟨before, c :: rest⟩ with
      | none => exact ih (c :: before) 0
      | some found =>
        refine List.pairwise_cons.mpr ⟨?_, ih (c :: before) _⟩
        intro later hlater
        have hle := le_offset_of_mem hlater
        rw [List.length_cons] at hle
        rw [offset_of_at? hat]
        omega

/-- **Matches of one text lie one behind the other.** -/
theorem pairwise_allMatches (p : Pattern) (text : List Char) :
    (p.allMatches text).Pairwise fun m later =>
      m.offset < later.offset ∧ m.offset + m.length ≤ later.offset :=
  pairwise_matchesBehind [] 0 text

/-- No match that is found covers the start of another one that is found. -/
theorem not_covers_of_mem {earlier : Match} (hearlier : earlier ∈ p.allMatches text)
    (hm : m ∈ p.allMatches text) : ¬ earlier.Covers m := by
  have hself : ∀ a ∈ p.allMatches text, ¬ a.Covers a := fun a _ h => Nat.lt_irrefl _ h.1
  have hforward : (p.allMatches text).Pairwise fun a b => ¬ a.Covers b := by
    refine (p.pairwise_allMatches text).imp ?_
    rintro a b ⟨-, hapart⟩ hcovers
    exact Nat.not_lt.mpr hapart hcovers.2
  have hbackward : (p.allMatches text).Pairwise fun a b => ¬ b.Covers a := by
    refine (p.pairwise_allMatches text).imp ?_
    rintro a b ⟨hlt, -⟩ hcovers
    exact Nat.lt_asymm hlt hcovers.1
  exact hforward.forall_of_forall_of_flip hself hbackward hearlier hm

/-! ## No match is lost -/

/-- A match that starts where the sweep still comes by is found, or else covered. -/
theorem mem_or_covered (front : List Char) (hskip : skip ≤ front.length)
    (hat : p.at? ⟨front.reverse ++ before, after⟩ = some m) :
    m ∈ p.matchesBehind before skip (front ++ after) ∨
      ∃ earlier ∈ p.matchesBehind before skip (front ++ after), earlier.Covers m := by
  induction front generalizing before skip with
  | nil =>
    obtain rfl : skip = 0 := Nat.le_zero.mp hskip
    left
    cases after with
    | nil =>
      rw [List.nil_append, matchesBehind, if_pos rfl]
      exact Option.mem_toList.mpr hat
    | cons c rest =>
      rw [List.reverse_nil, List.nil_append] at hat
      rw [List.nil_append, matchesBehind, hat]
      exact List.mem_cons_self
  | cons c front ih =>
    have hplace : (c :: front).reverse ++ before = front.reverse ++ c :: before := by simp
    rw [hplace] at hat
    rw [List.length_cons] at hskip
    cases skip with
    | succ skip => exact ih (Nat.le_of_succ_le_succ hskip) hat
    | zero =>
      rw [List.cons_append, matchesBehind]
      cases hhere : p.at? ⟨before, c :: (front ++ after)⟩ with
      | none => exact ih (Nat.zero_le _) hat
      | some found =>
        by_cases hpassed : found.length - 1 ≤ front.length
        · -- the sweep is past the match found here when it comes by
          rcases ih hpassed hat with hm | ⟨earlier, hearlier, hcovers⟩
          · exact Or.inl (List.mem_cons_of_mem _ hm)
          · exact Or.inr ⟨earlier, List.mem_cons_of_mem _ hearlier, hcovers⟩
        · refine Or.inr ⟨found, List.mem_cons_self, ?_⟩
          have hoffset := offset_of_at? hat
          rw [List.length_append, List.length_reverse, List.length_cons] at hoffset
          rw [Match.Covers, offset_of_at? hhere, hoffset]
          omega

/-- A match is the preferred one at a place where the text is cut. -/
theorem Found.exists_cut (h : p.Found text m) :
    ∃ front after, text = front ++ after ∧ p.at? ⟨front.reverse, after⟩ = some m := by
  refine ⟨m.start.before.reverse, m.start.after, h.text_eq, ?_⟩
  rw [List.reverse_reverse]
  exact h.at_start

/-- **What is found.**  A match is found if it is the preferred one at its place in the text,
and no match that is found covers this place. -/
theorem mem_allMatches_iff :
    m ∈ p.allMatches text ↔
      p.Found text m ∧ ∀ earlier ∈ p.allMatches text, ¬ earlier.Covers m := by
  constructor
  · intro hm
    exact ⟨found_of_mem_allMatches hm, fun earlier hearlier => not_covers_of_mem hearlier hm⟩
  · rintro ⟨hfound, hnone⟩
    obtain ⟨front, after, rfl, hat⟩ := hfound.exists_cut
    rw [← List.append_nil front.reverse] at hat
    rcases mem_or_covered front (Nat.zero_le _) hat with hm | ⟨earlier, hearlier, hcovers⟩
    · exact hm
    · exact absurd hcovers (hnone earlier hearlier)

/-- **Every other match of a chain is found.**  If at most one match can cover the start of
each match, and `depth` counts how many lie in front of it in this way, then the matches of
even depth are found. -/
theorem mem_allMatches_iff_even (depth : Match → Nat)
    (hchain : ∀ m, p.Found text m →
      (depth m = 0 ∧ ∀ earlier, p.Found text earlier → ¬ earlier.Covers m) ∨
      ∃ first, p.Found text first ∧ first.Covers m ∧ depth m = depth first + 1 ∧
        ∀ earlier, p.Found text earlier → earlier.Covers m → earlier = first) (m : Match) :
    m ∈ p.allMatches text ↔ p.Found text m ∧ Even (depth m) := by
  induction hoffset : m.offset using Nat.strong_induction_on generalizing m with
  | h offset ih =>
    rw [mem_allMatches_iff]
    refine and_congr_right ?_
    intro hfound
    rcases hchain m hfound with ⟨hzero, hnone⟩ | ⟨first, hfirst, hcovers, hdepth, honly⟩
    · rw [hzero]
      refine iff_of_true ?_ Even.zero
      exact fun earlier hearlier => hnone earlier (found_of_mem_allMatches hearlier)
    · have hih := ih first.offset (hoffset ▸ hcovers.1) first rfl
      rw [hdepth, Nat.even_add_one]
      constructor
      · intro hall heven
        exact hall first (hih.mpr ⟨hfirst, heven⟩) hcovers
      · intro hodd earlier hearlier hcovers'
        obtain rfl := honly earlier (found_of_mem_allMatches hearlier) hcovers'
        exact hodd (hih.mp hearlier).2

/-! ## The first match -/

theorem head?_matchesBehind (before after : List Char) :
    (p.matchesBehind before 0 after).head? = p.findBehind before after := by
  induction after generalizing before with
  | nil =>
    rw [matchesBehind, if_pos rfl, findBehind]
    cases p.at? ⟨before, []⟩ <;> rfl
  | cons c rest ih =>
    rw [matchesBehind, findBehind]
    cases p.at? ⟨before, c :: rest⟩ with
    | none => exact ih (c :: before)
    | some m => rfl

/-- The first of all matches is the one that is looked for. -/
theorem head?_allMatches (p : Pattern) (text : List Char) :
    (p.allMatches text).head? = p.find? text :=
  head?_matchesBehind [] text

/-- The sweep goes past the characters that a match has taken. -/
theorem matchesBehind_length (p : Pattern) (before taken rest : List Char) :
    p.matchesBehind before taken.length (taken ++ rest) =
      p.matchesBehind (taken.reverse ++ before) 0 rest := by
  induction taken generalizing before with
  | nil => rfl
  | cons c taken ih =>
    rw [List.cons_append, List.length_cons, matchesBehind, ih, List.reverse_cons, List.append_assoc]
    rfl

theorem findBehind_of_at? (h : p.at? ⟨before, after⟩ = some m) :
    p.findBehind before after = some m := by
  cases after with
  | nil => rw [findBehind, h]
  | cons c rest => rw [findBehind, h]

/-- Where the search ends, the text is cut, and the sweep comes by there. -/
theorem exists_cut_of_findBehind (h : p.findBehind before after = some m) :
    ∃ passed rest, after = passed ++ rest ∧ p.at? ⟨passed.reverse ++ before, rest⟩ = some m ∧
      p.matchesBehind before 0 after = p.matchesBehind (passed.reverse ++ before) 0 rest := by
  induction after generalizing before with
  | nil => exact ⟨[], [], rfl, h, rfl⟩
  | cons c after ih =>
    rw [findBehind] at h
    cases hat : p.at? ⟨before, c :: after⟩ with
    | some found =>
      rw [hat] at h
      exact ⟨[], c :: after, rfl, hat.trans h, rfl⟩
    | none =>
      rw [hat] at h
      obtain ⟨passed, rest, rfl, hfound, hsweep⟩ := ih h
      refine ⟨c :: passed, rest, rfl, by simpa using hfound, ?_⟩
      rw [matchesBehind, hat, hsweep, List.reverse_cons, List.append_assoc, List.singleton_append]

/-- A search ends with a match if one can start anywhere. -/
theorem isSome_findBehind_iff :
    (p.findBehind before after).isSome = true ↔ ∃ passed rest, after = passed ++ rest ∧
      (p.at? ⟨passed.reverse ++ before, rest⟩).isSome = true := by
  induction after generalizing before with
  | nil =>
    rw [findBehind]
    refine ⟨fun h => ⟨[], [], rfl, h⟩, ?_⟩
    rintro ⟨passed, rest, htext, h⟩
    obtain ⟨rfl, rfl⟩ := List.append_eq_nil_iff.mp htext.symm
    exact h
  | cons c after ih =>
    rw [findBehind]
    cases hat : p.at? ⟨before, c :: after⟩ with
    | some m => exact ⟨fun _ => ⟨[], c :: after, rfl, by simp [hat]⟩, fun _ => rfl⟩
    | none =>
      refine ih.trans ⟨?_, ?_⟩
      · rintro ⟨passed, rest, rfl, h⟩
        exact ⟨c :: passed, rest, rfl, by simpa using h⟩
      · rintro ⟨passed, rest, htext, h⟩
        cases passed with
        | nil =>
          obtain rfl : c :: after = rest := htext
          rw [List.reverse_nil, List.nil_append, hat] at h
          cases h
        | cons d passed =>
          obtain ⟨rfl, rfl⟩ := List.cons_eq_cons.mp htext
          exact ⟨passed, rest, rfl, by simpa using h⟩

/-- **A pattern occurs in a text** if it reaches a place from where the text can be cut. -/
theorem occursIn_iff {text : List Char} :
    p.occursIn text = true ↔ ∃ front after, text = front ++ after ∧
      ∃ s, s ∈ p.reach ⟨⟨front.reverse, after⟩, []⟩ := by
  rw [occursIn, find?, isSome_findBehind_iff]
  simp only [List.append_nil, at?_isSome_iff]

/-- The search goes past a text in which no match starts. -/
theorem findBehind_append_of_none {front : List Char}
    (h : ∀ passed rest, front = passed ++ rest → rest ≠ [] →
      p.at? ⟨passed.reverse ++ before, rest ++ after⟩ = none) :
    p.findBehind before (front ++ after) = p.findBehind (front.reverse ++ before) after := by
  induction front generalizing before with
  | nil => rfl
  | cons c front ih =>
    have hhere := h [] (c :: front) rfl (List.cons_ne_nil _ _)
    rw [List.reverse_nil, List.nil_append, List.cons_append] at hhere
    rw [List.cons_append, findBehind, hhere, List.reverse_cons, List.append_assoc]
    refine ih fun passed rest hfront hne => ?_
    have hlater := h (c :: passed) rest (congrArg _ hfront) hne
    rwa [List.reverse_cons, List.append_assoc] at hlater

end Pattern
end LineLint
