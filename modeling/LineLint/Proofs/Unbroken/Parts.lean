import LineLint.Proofs.Checked.Matches

/-!
# What named stretches are made of

The stretches of a match that bear a name are read back from the text, so they
hold characters of the text only; and a stretch that stands between the two ends
of a part of a pattern holds only what the classes of that part admit.
`Pattern.Found.mem_part` says both at once.

The proof goes along the way of the match.  Every place on it has in front of it
an end of the text, so a stretch between two such places is a piece of the
text (`Pattern.reads_of_mem_reach`).
-/
namespace LineLint

/-- What is taken from a place is found in the text behind it. -/
theorem Cursor.Spans.subset_after {taken : List Char} {start stop : Cursor}
    (h : Spans taken start stop) : taken ⊆ start.after ∧ stop.after ⊆ start.after := by
  rw [h.1]
  exact ⟨List.subset_append_left _ _, List.subset_append_right _ _⟩

/-- Whether the text ahead and all named stretches are made of characters of a text, and each
stretch of characters that are allowed under its name. -/
structure Reached.Reads (text : List Char) (allowed : Part → Char → Prop) (r : Reached) :
    Prop where
  /-- What is still ahead belongs to the text. -/
  ahead : r.place.after ⊆ text
  /-- What has been passed under a name belongs to the text and is allowed there. -/
  stretches : ∀ found ∈ r.parts,
    Cursor.Within (fun c => c ∈ text ∧ allowed found.1 c) found.2.1 found.2.2

namespace Pattern

/-- Whether every stretch that a pattern names admits only what is allowed under its name. -/
def NamesWithin (allowed : Part → Char → Prop) : Pattern → Prop
  | both p q | either p q => p.NamesWithin allowed ∧ q.NamesWithin allowed
  | repeated p => p.NamesWithin allowed
  | named part p => p.Within (allowed part) ∧ p.NamesWithin allowed
  | _ => True

theorem namesWithin_true (p : Pattern) : p.NamesWithin fun _ _ => True := by
  induction p with
  | both p q ihp ihq | either p q ihp ihq => exact ⟨ihp, ihq⟩
  | repeated p ih => exact ih
  | named part p ih => exact ⟨within_true p, ih⟩
  | _ => trivial

variable {p : Pattern} {text : List Char} {allowed : Part → Char → Prop}

/-- What is ahead of a place that is reached was ahead of the place before. -/
theorem after_subset_of_mem_reach {r s : Reached} (hs : s ∈ p.reach r) :
    s.place.after ⊆ r.place.after := by
  obtain ⟨taken, hspans, -⟩ := reach_within (within_true p) hs
  exact hspans.subset_after.2

/-- A pattern without a name of its own leaves the stretches as they are. -/
theorem reads_of_parts_eq {r s : Reached} (hs : s ∈ p.reach r) (hparts : s.parts = r.parts)
    (hr : r.Reads text allowed) : s.Reads text allowed where
  ahead := List.Subset.trans (after_subset_of_mem_reach hs) hr.ahead
  stretches := hparts ▸ hr.stretches

/-- **Named stretches are pieces of the text**, made of what is allowed under their names. -/
theorem reads_of_mem_reach (h : p.NamesWithin allowed) {r s : Reached} (hs : s ∈ p.reach r)
    (hr : r.Reads text allowed) : s.Reads text allowed := by
  induction p generalizing r s with
  | here | run =>
    refine reads_of_parts_eq hs ?_ hr
    rw [reach, List.mem_singleton] at hs
    rw [hs]
  | char accepts =>
    refine reads_of_parts_eq hs ?_ hr
    simp only [reach] at hs
    split at hs
    · split at hs
      · rw [List.mem_singleton] at hs
        rw [hs]
      · cases hs
    · cases hs
  | many accepts =>
    refine reads_of_parts_eq hs ?_ hr
    obtain ⟨place, -, rfl⟩ := List.mem_map.mp hs
    rfl
  | edge | textStart | textEnd =>
    refine reads_of_parts_eq hs ?_ hr
    simp only [reach] at hs
    split at hs
    · rw [List.mem_singleton] at hs
      rw [hs]
    · cases hs
  | both p q ihp ihq =>
    obtain ⟨t, ht, hs⟩ := List.mem_flatMap.mp hs
    exact ihq h.2 hs (ihp h.1 ht hr)
  | either p q ihp ihq =>
    rcases List.mem_append.mp hs with hs | hs
    · exact ihp h.1 hs hr
    · exact ihq h.2 hs hr
  | repeated p ih => exact of_mem_iterate (fun r s hs hr => ih h hs hr) hs hr
  | named part p ih =>
    obtain ⟨t, ht, rfl⟩ := List.mem_map.mp hs
    have hreads := ih h.2 ht hr
    obtain ⟨taken, hspans, hallowed⟩ := reach_within h.1 ht
    refine ⟨hreads.ahead, List.forall_mem_cons.mpr ⟨?_, hreads.stretches⟩⟩
    exact ⟨taken, hspans, fun c hc => ⟨hr.ahead (hspans.subset_after.1 hc), hallowed c hc⟩⟩

/-- A named stretch of a match holds characters of the text that are allowed under its name. -/
theorem Found.mem_part {m : Match} (hm : p.Found text m) (h : p.NamesWithin allowed)
    {part : Part} {c : Char} (hc : c ∈ m.part part) : c ∈ text ∧ allowed part c := by
  obtain ⟨s, hs, hmatch⟩ := exists_reach_of_at? hm.at_start
  have hstart : Reached.Reads text allowed ⟨m.start, []⟩ :=
    ⟨hm.text_eq ▸ List.subset_append_right _ _, by simp⟩
  have hreads := reads_of_mem_reach h hs hstart
  rw [Match.part, Match.part?, hmatch] at hc
  cases hfind : s.parts.find? (·.1 == part) with
  | none => simp [hfind] at hc
  | some found =>
    obtain ⟨taken, hspans, hallowed⟩ := hreads.stretches found (List.mem_of_find?_eq_some hfind)
    have hname : found.1 = part := by simpa using List.find?_some hfind
    simp only [hfind, Option.map_some, Option.getD_some, hspans.textTo_eq] at hc
    exact hname ▸ hallowed c hc

/-- A named stretch of a match is made of the text. -/
theorem Found.part_subset {m : Match} (hm : p.Found text m) (part : Part) :
    m.part part ⊆ text :=
  fun _ hc => (hm.mem_part (namesWithin_true p) hc).1

/-- A match is a piece of the text. -/
theorem Found.text_subset {m : Match} (hm : p.Found text m) : m.text ⊆ text := by
  obtain ⟨s, hs, hmatch⟩ := exists_reach_of_at? hm.at_start
  obtain ⟨taken, hspans, -⟩ := reach_within (within_true p) hs
  have htext : m.text = taken := by
    rw [hmatch]
    exact hspans.textTo_eq
  rw [htext, hm.text_eq]
  exact List.Subset.trans hspans.subset_after.1 (List.subset_append_right _ _)

end Pattern
end LineLint
