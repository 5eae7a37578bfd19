import LineLint.Proofs.Layout.Patterns
import LineLint.Proofs.Pattern.Progress

/-! # How matches begin

A match that takes anything begins with a character that the pattern allows there
(`Pattern.begins`), and a pattern that cannot stay where it is takes something
(`Pattern.canStay`).  Both are computed from the pattern.  So two patterns that are
anchored at the start of a text, behind its white space, do not both match there if
they begin differently (`Pattern.occursIn_eq_false_of_begins`).
-/
namespace LineLint

open Text (isSpace)

namespace Cursor

/-- A run that leaves its place takes the next character. -/
theorem runEnd_eq_or (accepts : Char → Bool) (before after : List Char) :
    runEnd accepts before after = ⟨before, after⟩ ∨
      ∃ c rest, after = c :: rest ∧ accepts c = true := by
  cases after with
  | nil => exact Or.inl rfl
  | cons c rest =>
    rw [runEnd]
    by_cases hc : accepts c = true
    · exact Or.inr ⟨c, rest, rfl, hc⟩
    · rw [if_neg hc]
      exact Or.inl rfl

theorem eq_or_of_mem_runStops {accepts : Char → Bool} {before after : List Char}
    {stop : Cursor} (h : stop ∈ runStops accepts before after []) :
    stop = ⟨before, after⟩ ∨ ∃ c rest, after = c :: rest ∧ accepts c = true := by
  cases after with
  | nil => exact Or.inl (List.mem_singleton.mp h)
  | cons c rest =>
    rw [runStops] at h
    by_cases hc : accepts c = true
    · exact Or.inr ⟨c, rest, rfl, hc⟩
    · rw [if_neg hc] at h
      exact Or.inl (List.mem_singleton.mp h)

end Cursor

namespace Pattern

/-- Whether a pattern can match without taking a character. -/
def canStay : Pattern → Bool
  | char _ => false
  | here | many _ | run _ | edge | textStart | textEnd | repeated _ => true
  | both p q => p.canStay && q.canStay
  | either p q => p.canStay || q.canStay
  | named _ p => p.canStay

/-- Whether a match that takes something can begin with a character. -/
def begins (c : Char) : Pattern → Bool
  | here | edge | textStart | textEnd => false
  | char accepts | many accepts | run accepts => accepts c
  | both p q => p.begins c || (p.canStay && q.begins c)
  | either p q => p.begins c || q.begins c
  | repeated p | named _ p => p.begins c

@[simp] theorem canStay_append (p q : Pattern) :
    (p ++ q).canStay = (p.canStay && q.canStay) := rfl

@[simp] theorem begins_append (c : Char) (p q : Pattern) :
    (p ++ q).begins c = (p.begins c || (p.canStay && q.begins c)) := rfl

/-- Whether a pattern, on its way from one place to another, stays or begins as it can. -/
def SetsOut (p : Pattern) (start stop : Cursor) : Prop :=
  (stop = start ∧ p.canStay = true) ∨ ∃ c rest, start.after = c :: rest ∧ p.begins c = true

variable {p q : Pattern}

/-- **A pattern stays where it is or begins with a character that it allows.** -/
theorem setsOut_of_mem_reach {r s : Reached} (h : s ∈ p.reach r) :
    p.SetsOut r.place s.place := by
  induction p generalizing r s with
  | here =>
    obtain rfl := List.mem_singleton.mp h
    exact Or.inl ⟨rfl, rfl⟩
  | char accepts =>
    obtain ⟨⟨before, after⟩, parts⟩ := r
    cases after with
    | nil => cases h
    | cons c rest =>
      simp only [reach] at h
      by_cases hc : accepts c = true
      · exact Or.inr ⟨c, rest, rfl, hc⟩
      · rw [if_neg hc] at h
        cases h
  | many accepts =>
    obtain ⟨place, hplace, rfl⟩ := List.mem_map.mp h
    rcases Cursor.eq_or_of_mem_runStops hplace with heq | hbegins
    · exact Or.inl ⟨heq, rfl⟩
    · exact Or.inr hbegins
  | run accepts =>
    obtain rfl := List.mem_singleton.mp h
    rcases Cursor.runEnd_eq_or accepts r.place.before r.place.after with heq | hbegins
    · exact Or.inl ⟨heq, rfl⟩
    · exact Or.inr hbegins
  | edge | textStart | textEnd =>
    simp only [reach] at h
    split at h
    · obtain rfl := List.mem_singleton.mp h
      exact Or.inl ⟨rfl, rfl⟩
    · cases h
  | both p q ihp ihq =>
    obtain ⟨t, ht, hs⟩ := List.mem_flatMap.mp h
    rcases ihp ht with ⟨heq, hstay⟩ | ⟨c, rest, hafter, hc⟩
    · -- the first pattern stays, so the second sets out from the same place
      rcases ihq hs with ⟨heq', hstay'⟩ | ⟨c, rest, hafter, hc⟩
      · exact Or.inl ⟨heq'.trans heq, Bool.and_eq_true_iff.mpr ⟨hstay, hstay'⟩⟩
      · rw [heq] at hafter
        exact Or.inr ⟨c, rest, hafter, by simp [begins, hstay, hc]⟩
    · exact Or.inr ⟨c, rest, hafter, by simp [begins, hc]⟩
  | either p q ihp ihq =>
    rcases List.mem_append.mp h with h | h
    · rcases ihp h with ⟨heq, hstay⟩ | ⟨c, rest, hafter, hc⟩
      · exact Or.inl ⟨heq, by simp [canStay, hstay]⟩
      · exact Or.inr ⟨c, rest, hafter, by simp [begins, hc]⟩
    · rcases ihq h with ⟨heq, hstay⟩ | ⟨c, rest, hafter, hc⟩
      · exact Or.inl ⟨heq, by simp [canStay, hstay]⟩
      · exact Or.inr ⟨c, rest, hafter, by simp [begins, hc]⟩
  | repeated p ih =>
    refine of_mem_iterate (I := fun t => (repeated p).SetsOut r.place t.place) ?_ h
      (Or.inl ⟨rfl, rfl⟩)
    intro t u hu ht
    rcases ht with ⟨heq, -⟩ | hbegins
    · rcases ih hu with ⟨heq', -⟩ | hbegins
      · exact Or.inl ⟨heq'.trans heq, rfl⟩
      · rw [heq] at hbegins
        exact Or.inr hbegins
    · exact Or.inr hbegins
  | named part p ih =>
    obtain ⟨t, ht, rfl⟩ := List.mem_map.mp h
    exact ih (s := t) ht

/-- An anchored pattern that takes something begins with the first character of the text. -/
theorem exists_begins_of_isAnchored (hp : p.isAnchored = true) (hstay : p.canStay = false)
    {text : List Char} (h : p.occursIn text = true) :
    ∃ c rest, text = c :: rest ∧ p.begins c = true := by
  rw [occursIn, find?_of_isAnchored hp, Option.isSome_iff_exists] at h
  obtain ⟨m, hm⟩ := h
  obtain ⟨s, hs, -⟩ := exists_reach_of_at? hm
  rcases setsOut_of_mem_reach hs with ⟨-, htrue⟩ | hbegins
  · rw [hstay] at htrue
    cases htrue
  · exact hbegins

/-- **Anchored patterns that begin differently exclude each other.** -/
theorem occursIn_eq_false_of_begins (hp : p.isAnchored = true) (hpstay : p.canStay = false)
    (hq : q.isAnchored = true) (hqstay : q.canStay = false)
    (hdiffer : ∀ c, isSpace c = false → p.begins c = true → q.begins c = false)
    {text : List Char} (h : p.occursIn text = true) : q.occursIn text = false := by
  rw [← (indentBlind_occursIn_of_isAnchored hp).trimStart] at h
  rw [← (indentBlind_occursIn_of_isAnchored hq).trimStart]
  obtain ⟨c, rest, htext, hc⟩ := exists_begins_of_isAnchored hp hpstay h
  have hsolid : isSpace c = false := by
    have hhead := List.head?_dropWhile_not isSpace text
    rw [Text.trimStart] at htext
    simpa [htext] using hhead
  cases hother : q.occursIn (Text.trimStart text) with
  | false => rfl
  | true =>
    obtain ⟨d, rest', htext', hd⟩ := exists_begins_of_isAnchored hq hqstay hother
    obtain ⟨rfl, -⟩ := List.cons_eq_cons.mp (htext.symm.trans htext')
    rw [hdiffer c hsolid hc] at hd
    cases hd

end Pattern
end LineLint
