import LineLint.Pattern.Vocabulary
import LineLint.Proofs.Checked.Reads
import LineLint.Proofs.Pattern.Progress

/-! # What is read from matches

Behind a match, two things are read: its named stretches, and the text on either side
of it.  A stretch that every way through the pattern passes is there in every match
(`Pattern.Found.part?_eq`), and since a match starts and stops between characters of
its text, the text can be cut there (`Pattern.Found.dropBytes?_stop`,
`Pattern.Found.takeBytes?_start`).
-/
namespace LineLint

/-! ## Named stretches -/

/-- Whether a named stretch has been passed. -/
def Reached.hasPart (part : Part) (r : Reached) : Bool :=
  r.parts.any (·.1 == part)

namespace Pattern

/-- Whether every way through a pattern passes a named stretch. -/
def passes (part : Part) : Pattern → Bool
  | both p q => p.passes part || q.passes part
  | either p q => p.passes part && q.passes part
  | named other p => other == part || p.passes part
  | _ => false

variable {p : Pattern} {part : Part}

/-- A stretch stays passed, and is passed behind a pattern that does not do without it. -/
theorem hasPart_of_mem_reach {r s : Reached} (hs : s ∈ p.reach r)
    (h : r.hasPart part = true ∨ p.passes part = true) : s.hasPart part = true := by
  induction p generalizing r s with
  | here =>
    rw [reach, List.mem_singleton] at hs
    rw [hs]
    exact h.resolve_right Bool.false_ne_true
  | char accepts =>
    simp only [reach] at hs
    split at hs
    · split at hs
      · rw [List.mem_singleton] at hs
        rw [hs]
        exact h.resolve_right Bool.false_ne_true
      · cases hs
    · cases hs
  | many accepts =>
    obtain ⟨place, -, rfl⟩ := List.mem_map.mp hs
    exact h.resolve_right Bool.false_ne_true
  | run accepts =>
    rw [reach, List.mem_singleton] at hs
    rw [hs]
    exact h.resolve_right Bool.false_ne_true
  | edge | textStart | textEnd =>
    simp only [reach] at hs
    split at hs
    · rw [List.mem_singleton] at hs
      rw [hs]
      exact h.resolve_right Bool.false_ne_true
    · cases hs
  | both p q ihp ihq =>
    obtain ⟨t, ht, hs⟩ := List.mem_flatMap.mp hs
    rcases h with h | h
    · exact ihq hs (Or.inl (ihp ht (Or.inl h)))
    · rcases Bool.or_eq_true_iff.mp h with h | h
      · exact ihq hs (Or.inl (ihp ht (Or.inr h)))
      · exact ihq hs (Or.inr h)
  | either p q ihp ihq =>
    rcases List.mem_append.mp hs with hs | hs
    · exact ihp hs (h.imp_right fun h => (Bool.and_eq_true_iff.mp h).1)
    · exact ihq hs (h.imp_right fun h => (Bool.and_eq_true_iff.mp h).2)
  | repeated p ih =>
    exact of_mem_iterate (fun r s hs hr => ih hs (Or.inl hr)) hs
      (h.resolve_right Bool.false_ne_true)
  | named other p ih =>
    obtain ⟨t, ht, rfl⟩ := List.mem_map.mp hs
    rw [Reached.hasPart, List.any_cons, Bool.or_eq_true_iff]
    rcases h with h | h
    · exact Or.inr (ih ht (Or.inl h))
    · exact (Bool.or_eq_true_iff.mp h).imp_right fun h => ih ht (Or.inr h)

/-! ## Matches in their text -/

/-- A match of a pattern at a place of a text. -/
structure Found (p : Pattern) (text : List Char) (m : Match) : Prop where
  /-- The match is the preferred one where it starts. -/
  at_start : p.at? m.start = some m
  /-- It starts in the text. -/
  text_eq : text = m.start.before.reverse ++ m.start.after

theorem start_of_at? {place : Cursor} {m : Match} (h : p.at? place = some m) :
    m.start = place := by
  obtain ⟨s, -, rfl⟩ := exists_reach_of_at? h
  rfl

theorem found_of_at? {before after : List Char} {m : Match} (h : p.at? ⟨before, after⟩ = some m) :
    p.Found (before.reverse ++ after) m := by
  have hstart := start_of_at? h
  exact ⟨hstart ▸ h, by rw [hstart]⟩

theorem found_of_findBehind {before after : List Char} {m : Match}
    (h : p.findBehind before after = some m) : p.Found (before.reverse ++ after) m := by
  induction after generalizing before with
  | nil => exact found_of_at? h
  | cons c rest ih =>
    rw [findBehind] at h
    cases hat : p.at? ⟨before, c :: rest⟩ with
    | some found =>
      rw [hat] at h
      obtain rfl := Option.some.inj h
      exact found_of_at? hat
    | none =>
      rw [hat] at h
      have hfound := ih h
      rwa [List.reverse_cons, List.append_assoc] at hfound

theorem found_of_mem_matchesBehind {before after : List Char} {skip : Nat} {m : Match}
    (hm : m ∈ p.matchesBehind before skip after) : p.Found (before.reverse ++ after) m := by
  induction after generalizing before skip with
  | nil =>
    rw [matchesBehind] at hm
    split at hm
    · exact found_of_at? (Option.mem_toList.mp hm)
    · cases hm
  | cons c rest ih =>
    have hnext : ∀ {skip}, m ∈ p.matchesBehind (c :: before) skip rest →
        p.Found (before.reverse ++ c :: rest) m := by
      intro skip hm
      have hfound := ih hm
      rwa [List.reverse_cons, List.append_assoc] at hfound
    cases skip with
    | succ skip => exact hnext hm
    | zero =>
      rw [matchesBehind] at hm
      cases hat : p.at? ⟨before, c :: rest⟩ with
      | none =>
        rw [hat] at hm
        exact hnext hm
      | some found =>
        rw [hat] at hm
        rcases List.mem_cons.mp hm with rfl | hm
        · exact found_of_at? hat
        · exact hnext hm

theorem found_of_find? {text : List Char} {m : Match} (h : m ∈ p.find? text) : p.Found text m :=
  found_of_findBehind h

theorem found_of_mem_allMatches {text : List Char} {m : Match} (hm : m ∈ p.allMatches text) :
    p.Found text m :=
  found_of_mem_matchesBehind hm

end Pattern

namespace Match

/-- Where the match starts, in bytes. -/
def startOffset (m : Match) : Nat :=
  Text.byteLength m.start.before.reverse

/-- Where the match stops, in bytes. -/
def stopOffset (m : Match) : Nat :=
  Text.byteLength m.stop.before.reverse

end Match

namespace Pattern.Found

variable {p : Pattern} {text : List Char} {m : Match}

/-- A stretch that no match does without can be read. -/
theorem part?_eq (h : p.Found text m) {part : Part} (hpart : p.passes part = true) :
    m.part? part = some (m.part part) := by
  obtain ⟨s, hs, hm⟩ := exists_reach_of_at? h.at_start
  have hhas : s.hasPart part = true := hasPart_of_mem_reach hs (Or.inr hpart)
  have hsome : (m.parts.find? (·.1 == part)).isSome = true := by
    rw [hm, List.find?_isSome]
    exact List.any_eq_true.mp hhas
  obtain ⟨found, hfound⟩ := Option.isSome_iff_exists.mp hsome
  rw [Match.part, Match.part?, hfound]
  rfl

/-- The text can be cut where a match starts. -/
theorem takeBytes?_start (h : p.Found text m) :
    Text.takeBytes? m.startOffset text = some (text.take m.offset) := by
  rw [h.text_eq, Match.offset, ← List.length_reverse, List.take_left]
  exact Text.takeBytes?_append _ _

/-- The text can be cut where a match stops. -/
theorem dropBytes?_stop (h : p.Found text m) :
    Text.dropBytes? m.stopOffset text = some m.rest := by
  obtain ⟨s, hs, hm⟩ := exists_reach_of_at? h.at_start
  obtain ⟨taken, ⟨hafter, hbefore⟩, -⟩ := reach_within (within_true p) hs
  have htext : text = m.stop.before.reverse ++ m.stop.after := by
    rw [hm, h.text_eq, hafter, hbefore, List.reverse_append, List.reverse_reverse,
      List.append_assoc]
  rw [htext, Match.rest]
  exact Text.dropBytes?_append _ _

end Pattern.Found
end LineLint
