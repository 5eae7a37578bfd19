import LineLint.Proofs.Checked.Matches
import LineLint.Proofs.Pattern.Words

/-! # What a named stretch is

A match is read back by its named stretches, and a stretch is what the part of the pattern under its
name takes.  So what holds of everything that this part takes holds of the stretch
(`Pattern.Found.part_of_namesAll`); where names are read, the stretch is an identifier
(`Pattern.Found.isIdentifier_name`).
-/
namespace LineLint

/-- Whether a condition holds of all named stretches that have been passed. -/
def Reached.Stretches (P : Part → List Char → Prop) (r : Reached) : Prop :=
  ∀ found ∈ r.parts, ∃ taken, Cursor.Spans taken found.2.1 found.2.2 ∧ P found.1 taken

namespace Pattern

/-- Whether a condition holds of everything that a pattern takes under a name. -/
def NamesAll (P : Part → List Char → Prop) : Pattern → Prop
  | both p q | either p q => p.NamesAll P ∧ q.NamesAll P
  | repeated p => p.NamesAll P
  | named part p =>
    (∀ r, ∀ s ∈ p.reach r, ∀ taken, Cursor.Spans taken r.place s.place → P part taken) ∧
      p.NamesAll P
  | _ => True

variable {P : Part → List Char → Prop} {p q : Pattern} {text : List Char} {m : Match}

@[simp] theorem namesAll_edge : edge.NamesAll P := trivial

@[simp] theorem namesAll_textStart : textStart.NamesAll P := trivial

@[simp] theorem namesAll_append : (p ++ q).NamesAll P ↔ p.NamesAll P ∧ q.NamesAll P := Iff.rfl

@[simp] theorem namesAll_orElse : (p <|> q).NamesAll P ↔ p.NamesAll P ∧ q.NamesAll P := Iff.rfl

@[simp] theorem namesAll_repeated : (repeated p).NamesAll P ↔ p.NamesAll P := Iff.rfl

@[simp] theorem namesAll_char (accepts : Char → Bool) : (char accepts).NamesAll P := trivial

@[simp] theorem namesAll_run (accepts : Char → Bool) : (run accepts).NamesAll P := trivial

@[simp] theorem namesAll_optional : (optional p).NamesAll P ↔ p.NamesAll P := and_iff_left trivial

@[simp] theorem namesAll_exactly (c : Char) : (exactly c).NamesAll P := trivial

@[simp] theorem namesAll_allBut (c : Char) : (allBut c).NamesAll P := trivial

@[simp] theorem namesAll_spaces : spaces.NamesAll P := trivial

@[simp] theorem namesAll_oneOrMore (accepts : Char → Bool) : (oneOrMore accepts).NamesAll P :=
  ⟨trivial, trivial⟩

@[simp] theorem namesAll_gap : gap.NamesAll P := namesAll_oneOrMore _

@[simp] theorem namesAll_identifier : identifier.NamesAll P := ⟨trivial, trivial⟩

@[simp] theorem namesAll_word (keyword : String) : (word keyword).NamesAll P := by
  refine of_sequence trivial (fun p q hp hq => ⟨hp, hq⟩) fun p hp => ?_
  obtain ⟨letter, -, rfl⟩ := List.mem_map.mp hp
  trivial

@[simp] theorem namesAll_words (keywords : List String) : (words keywords).NamesAll P := by
  refine of_anyOf trivial (fun p q hp hq => ⟨hp, hq⟩) fun p hp => ?_
  obtain ⟨keyword, -, rfl⟩ := List.mem_map.mp hp
  exact namesAll_word keyword

/-- **What is passed under a name is what the pattern takes there.** -/
theorem stretches_of_mem_reach (h : p.NamesAll P) {r s : Reached} (hs : s ∈ p.reach r)
    (hr : r.Stretches P) : s.Stretches P := by
  induction p generalizing r s with
  | here | run =>
    obtain rfl := List.mem_singleton.mp hs
    exact hr
  | char accepts =>
    simp only [reach] at hs
    split at hs
    · split at hs
      · obtain rfl := List.mem_singleton.mp hs
        exact hr
      · cases hs
    · cases hs
  | many accepts =>
    obtain ⟨place, -, rfl⟩ := List.mem_map.mp hs
    exact hr
  | edge | textStart | textEnd =>
    simp only [reach] at hs
    split at hs
    · obtain rfl := List.mem_singleton.mp hs
      exact hr
    · cases hs
  | both p q ihp ihq =>
    obtain ⟨t, ht, hs⟩ := List.mem_flatMap.mp hs
    exact ihq h.2 hs (ihp h.1 ht hr)
  | either p q ihp ihq =>
    rcases List.mem_append.mp hs with hs | hs
    · exact ihp h.1 hs hr
    · exact ihq h.2 hs hr
  | repeated p ih => exact of_mem_iterate (fun r s hs hr => ih h hs hr) hs hr
  | named part p ih =>
    obtain ⟨t, ht, rfl⟩ := List.mem_map.mp hs
    obtain ⟨taken, hspans, -⟩ := reach_within (within_true p) ht
    exact List.forall_mem_cons.mpr ⟨⟨taken, hspans, h.1 r t ht taken hspans⟩, ih h.2 ht hr⟩

/-- A stretch that no match does without is one that the pattern takes under its name. -/
theorem Found.part_of_namesAll (hm : p.Found text m) (h : p.NamesAll P) {part : Part}
    (hpart : p.passes part = true) : P part (m.part part) := by
  obtain ⟨s, hs, hmatch⟩ := exists_reach_of_at? hm.at_start
  have hstretches := stretches_of_mem_reach h hs fun found hfound => absurd hfound (by simp)
  have hread := hm.part?_eq hpart
  rw [Match.part?, hmatch] at hread
  obtain ⟨found, hfound, htext⟩ := Option.map_eq_some_iff.mp hread
  obtain ⟨taken, hspans, hP⟩ := hstretches found (List.mem_of_find?_eq_some hfound)
  have hname : found.1 = part := by simpa using List.find?_some hfound
  rw [hspans.textTo_eq] at htext
  rw [hmatch, ← htext, ← hname]
  exact hP

/-! ## Names -/

/-- Whether a stretch is an identifier if it bears the name of names. -/
def IsNamed (part : Part) (taken : List Char) : Prop :=
  part = .name → IsIdentifier taken

/-- What bears another name may be anything. -/
@[simp] theorem namesAll_named {part : Part} (h : part ≠ .name) :
    (named part p).NamesAll IsNamed ↔ p.NamesAll IsNamed :=
  and_iff_right fun _ _ _ _ _ hname => absurd hname h

@[simp] theorem namesAll_name : (named .name identifier).NamesAll IsNamed := by
  refine ⟨?_, trivial, trivial⟩
  rintro ⟨⟨before, after⟩, parts⟩ s hs taken hspans -
  obtain ⟨found, rest, hfound, -, rfl, rfl⟩ := mem_reach_identifier hs
  rwa [← List.append_cancel_right hspans.1]

/-- A name that is read from a match is an identifier. -/
theorem Found.isIdentifier_name (hm : p.Found text m) (h : p.NamesAll IsNamed)
    (hname : p.passes .name = true) : IsIdentifier (m.part .name) :=
  hm.part_of_namesAll h hname rfl

end Pattern
end LineLint
