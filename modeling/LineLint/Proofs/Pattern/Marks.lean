import LineLint.Proofs.Pattern.Beginnings
import Mathlib.Data.List.Basic

/-! # Texts that are cut off at a mark

A pattern that `shuns` a character has no class that accepts it, and does not ask for the end
of the text, so it does not get past that character.  A text that begins with it can
be put behind another one: the pattern reaches the same places there
(`Pattern.reach_extend`), and its first match is the same if it is anchored
(`Pattern.find?_append_of_shuns`); otherwise there may be more matches behind the character
(`Pattern.allMatches_append`).  The character must not belong to words, because the edge
of a word is seen from either side.

In a repetition each round has to take something (`Pattern.length_lt_of_mem_reach`), or else
the longer text would leave room for more rounds (`iterate_eq_of_length_le`).
-/
namespace LineLint

/-- The place in the text with more text behind it. -/
def Cursor.extend (tail : List Char) (place : Cursor) : Cursor :=
  ⟨place.before, place.after ++ tail⟩

/-- Whether a text is empty or begins with a mark that belongs to no word. -/
structure Text.SetOff (mark : Char) (tail : List Char) : Prop where
  head : ∀ c ∈ tail.head?, c = mark
  word : isWordChar mark = false

namespace Cursor
variable {mark : Char} {tail : List Char}

theorem touchesWord_extend (h : Text.SetOff mark tail) (after : List Char) :
    touchesWord (after ++ tail) = touchesWord after := by
  cases after with
  | cons c after => rfl
  | nil =>
    cases tail with
    | nil => rfl
    | cons c tail =>
      obtain rfl := h.head c rfl
      exact h.word

theorem atEdge_extend (h : Text.SetOff mark tail) (place : Cursor) :
    (place.extend tail).atEdge = place.atEdge := by
  simp only [atEdge, extend, touchesWord_extend h]

theorem runStops_extend {accepts : Char → Bool} (hmark : accepts mark = false)
    (h : Text.SetOff mark tail) (before after : List Char) (nearer : List Cursor) :
    runStops accepts before (after ++ tail) (nearer.map (extend tail)) =
      (runStops accepts before after nearer).map (extend tail) := by
  induction after generalizing before nearer with
  | cons c after ih =>
    rw [List.cons_append, runStops, runStops]
    cases accepts c with
    | false => rfl
    | true => exact ih (c :: before) (⟨before, c :: after⟩ :: nearer)
  | nil =>
    cases tail with
    | nil => rfl
    | cons c tail =>
      obtain rfl := h.head c rfl
      simp only [List.nil_append, runStops, hmark]
      rfl

theorem runEnd_extend {accepts : Char → Bool} (hmark : accepts mark = false)
    (h : Text.SetOff mark tail) (before after : List Char) :
    runEnd accepts before (after ++ tail) = (runEnd accepts before after).extend tail := by
  induction after generalizing before with
  | cons c after ih =>
    rw [List.cons_append, runEnd, runEnd]
    cases accepts c with
    | false => rfl
    | true => exact ih (c :: before)
  | nil =>
    cases tail with
    | nil => rfl
    | cons c tail =>
      obtain rfl := h.head c rfl
      simp only [List.nil_append, runEnd, hmark]
      rfl

theorem textTo_extend (start stop : Cursor) :
    (start.extend tail).textTo (stop.extend tail) = start.textTo stop := by
  have hlength : (start.after ++ tail).length - (stop.after ++ tail).length =
      start.after.length - stop.after.length := by
    simp only [List.length_append]
    omega
  rw [textTo, extend, extend, hlength, List.take_append_of_le_length (Nat.sub_le _ _), textTo]

end Cursor

/-- Steps that take something each are no more than the text allows, so a bound that is not
less does not matter. -/
theorem iterate_eq_of_length_le {step : Reached → List Reached}
    (h : ∀ r, ∀ s ∈ step r, s.place.after.length < r.place.after.length) {bound more : List Char}
    {r : Reached} (hbound : r.place.after.length ≤ bound.length)
    (hmore : r.place.after.length ≤ more.length) : iterate step bound r = iterate step more r := by
  have hstep : ∀ r, r.place.after.length = 0 → step r = [] := by
    intro r hzero
    refine List.eq_nil_iff_forall_not_mem.mpr fun s hs => ?_
    exact Nat.not_lt_zero _ (hzero ▸ h r s hs)
  induction bound generalizing more r with
  | nil =>
    cases more with
    | nil => rfl
    | cons d more =>
      rw [iterate_nil, iterate_cons, hstep r (Nat.le_zero.mp hbound)]
      rfl
  | cons c bound ih =>
    cases more with
    | nil =>
      rw [iterate_nil, iterate_cons, hstep r (Nat.le_zero.mp hmore)]
      rfl
    | cons d more =>
      rw [iterate_cons, iterate_cons]
      congr 1
      refine List.flatMap_congr fun s hs => ?_
      have hlt := h r s hs
      rw [List.length_cons] at hbound hmore
      exact ih (by omega) (by omega)

namespace Pattern
variable {p : Pattern} {mark : Char} {tail : List Char}

/-- A pattern that cannot stay takes something. -/
theorem length_lt_of_mem_reach (hp : p.canStay = false) {r s : Reached} (hs : s ∈ p.reach r) :
    s.place.after.length < r.place.after.length := by
  induction p generalizing r s with
  | here | many _ | run _ | edge | textStart | textEnd | repeated _ => cases hp
  | char accepts =>
    obtain ⟨⟨before, after⟩, parts⟩ := r
    cases after with
    | nil => cases hs
    | cons c rest =>
      simp only [reach] at hs
      split at hs
      · rw [List.mem_singleton] at hs
        rw [hs]
        exact Nat.lt_succ_self _
      · cases hs
  | both p q ihp ihq =>
    obtain ⟨t, ht, hs⟩ := List.mem_flatMap.mp hs
    rcases Bool.and_eq_false_iff.mp hp with hp | hq
    · exact Nat.lt_of_le_of_lt (length_le_of_mem_reach hs) (ihp hp ht)
    · exact Nat.lt_of_lt_of_le (ihq hq hs) (length_le_of_mem_reach ht)
  | either p q ihp ihq =>
    obtain ⟨hp, hq⟩ := Bool.or_eq_false_iff.mp hp
    exact (List.mem_append.mp hs).elim (ihp hp) (ihq hq)
  | named part p ih =>
    obtain ⟨t, ht, rfl⟩ := List.mem_map.mp hs
    exact ih (s := t) hp ht

/-- Whether no class of a pattern accepts a character, and the end of the text is not asked
for. -/
def shuns (mark : Char) : Pattern → Bool
  | textEnd => false
  | here | edge | textStart => true
  | char accepts | many accepts | run accepts => !accepts mark
  | both p q | either p q => p.shuns mark && q.shuns mark
  | repeated p => !p.canStay && p.shuns mark
  | named _ p => p.shuns mark

/-- **A text behind the mark is not seen by a pattern that shuns it.** -/
theorem reach_extend (hp : p.shuns mark = true) (h : Text.SetOff mark tail) (r : Reached) :
    p.reach (r.map (Cursor.extend tail)) = (p.reach r).map (Reached.map (Cursor.extend tail)) := by
  induction p generalizing r with
  | textEnd => cases hp
  | here => rfl
  | char accepts =>
    have hmark : accepts mark = false := (Bool.not_eq_true' _).mp hp
    obtain ⟨⟨before, after⟩, parts⟩ := r
    cases after with
    | cons c after =>
      simp only [reach, Reached.map, Cursor.extend, List.cons_append]
      cases accepts c <;> rfl
    | nil =>
      cases tail with
      | nil => rfl
      | cons c tail =>
        obtain rfl := h.head c rfl
        simp only [reach, Reached.map, Cursor.extend, List.nil_append, hmark]
        rfl
  | many accepts =>
    have hstops := Cursor.runStops_extend ((Bool.not_eq_true' _).mp hp) h r.place.before
      r.place.after []
    rw [List.map_nil] at hstops
    simp only [reach, Reached.map, Cursor.extend] at hstops ⊢
    rw [hstops, List.map_map, List.map_map]
    rfl
  | run accepts =>
    simp only [reach, Reached.map, Cursor.extend]
    rw [Cursor.runEnd_extend ((Bool.not_eq_true' _).mp hp) h]
    rfl
  | edge =>
    simp only [reach]
    rw [show (r.map (Cursor.extend tail)).place = r.place.extend tail from rfl,
      Cursor.atEdge_extend h]
    cases r.place.atEdge <;> rfl
  | textStart =>
    obtain ⟨⟨before, after⟩, parts⟩ := r
    cases before <;> rfl
  | both p q ihp ihq =>
    obtain ⟨hp, hq⟩ := Bool.and_eq_true_iff.mp hp
    simp only [reach]
    rw [ihp hp, List.flatMap_map, List.map_flatMap]
    simp only [ihq hq]
  | either p q ihp ihq =>
    obtain ⟨hp, hq⟩ := Bool.and_eq_true_iff.mp hp
    simp only [reach]
    rw [ihp hp, ihq hq, List.map_append]
  | repeated p ih =>
    obtain ⟨hstay, hp⟩ := Bool.and_eq_true_iff.mp hp
    -- the longer text allows more rounds, but there are none to take
    have hbound : iterate p.reach (r.place.after ++ tail) r = iterate p.reach r.place.after r :=
      iterate_eq_of_length_le
        (fun _ _ hs => length_lt_of_mem_reach ((Bool.not_eq_true' _).mp hstay) hs)
        (by simp) (Nat.le_refl _)
    simp only [reach]
    rw [show (r.map (Cursor.extend tail)).place.after = r.place.after ++ tail from rfl,
      iterate_map (ih hp), hbound]
  | named part p ih =>
    simp only [reach]
    rw [ih hp, List.map_map, List.map_map]
    rfl

/-- A match in front of the mark is the same, with the text behind it. -/
theorem at?_append (hp : p.shuns mark = true) (h : Text.SetOff mark tail)
    (before after : List Char) :
    p.at? ⟨before, after ++ tail⟩ =
      (p.at? ⟨before, after⟩).map (Match.map (Cursor.extend tail)) :=
  at?_map (reach_extend hp h ⟨⟨before, after⟩, []⟩)

/-- The first match of an anchored pattern is the same, with the text behind it. -/
theorem find?_append_of_shuns (hanchored : p.isAnchored = true) (hp : p.shuns mark = true)
    (h : Text.SetOff mark tail) (text : List Char) :
    p.find? (text ++ tail) = (p.find? text).map (Match.map (Cursor.extend tail)) := by
  rw [find?_of_isAnchored hanchored, find?_of_isAnchored hanchored]
  exact at?_append hp h [] text

theorem occursIn_append_of_shuns (hanchored : p.isAnchored = true) (hp : p.shuns mark = true)
    (h : Text.SetOff mark tail) (text : List Char) :
    p.occursIn (text ++ tail) = p.occursIn text := by
  rw [occursIn, find?_append_of_shuns hanchored hp h, Option.isSome_map, occursIn]

/-! ## Sweeps into a mark -/

/-- A pattern that takes something does not match at the end of the text. -/
theorem at?_end (hstay : p.canStay = false) (before : List Char) : p.at? ⟨before, []⟩ = none := by
  rw [at?, List.eq_nil_iff_forall_not_mem.mpr fun s hs =>
    Nat.not_lt_zero _ (length_lt_of_mem_reach (r := ⟨⟨before, []⟩, []⟩) hstay hs)]
  rfl

/-- The search for the first match goes on behind the mark. -/
theorem findBehind_append (hp : p.shuns mark = true) (hstay : p.canStay = false)
    (h : Text.SetOff mark tail) (before after : List Char) :
    p.findBehind before (after ++ tail) =
      ((p.findBehind before after).map (Match.map (Cursor.extend tail))).or
        (p.findBehind (after.reverse ++ before) tail) := by
  induction after generalizing before with
  | nil =>
    rw [findBehind, at?_end hstay]
    rfl
  | cons c after ih =>
    rw [List.cons_append, findBehind, findBehind, ← List.cons_append, at?_append hp h,
      List.reverse_cons, List.append_assoc]
    cases p.at? ⟨before, c :: after⟩ with
    | some m => rfl
    | none => exact ih (c :: before)

theorem length_le_of_at? {before after : List Char} {m : Match}
    (h : p.at? ⟨before, after⟩ = some m) : m.length ≤ after.length := by
  obtain ⟨s, -, rfl⟩ := exists_reach_of_at? h
  exact Nat.sub_le _ _

theorem matchesBehind_append (hp : p.shuns mark = true) (hstay : p.canStay = false)
    (h : Text.SetOff mark tail) {skip : Nat} {after : List Char} (hskip : skip ≤ after.length)
    (before : List Char) :
    p.matchesBehind before skip (after ++ tail) =
      (p.matchesBehind before skip after).map (Match.map (Cursor.extend tail)) ++
        p.matchesBehind (after.reverse ++ before) 0 tail := by
  induction after generalizing before skip with
  | nil =>
    obtain rfl := Nat.le_zero.mp hskip
    rw [matchesBehind, at?_end hstay]
    rfl
  | cons c after ih =>
    rw [List.length_cons] at hskip
    rw [List.cons_append, List.reverse_cons, List.append_assoc]
    cases skip with
    | succ skip => exact ih (Nat.le_of_succ_le_succ hskip) (c :: before)
    | zero =>
      rw [matchesBehind, matchesBehind, ← List.cons_append, at?_append hp h]
      cases hat : p.at? ⟨before, c :: after⟩ with
      | none => exact ih (Nat.zero_le _) (c :: before)
      | some m =>
        have hle := length_le_of_at? hat
        have hlength : (m.map (Cursor.extend tail)).length = m.length := by
          simp only [Match.length, Match.map, Cursor.extend, List.length_append]
          omega
        rw [List.length_cons] at hle
        simp only [Option.map_some, hlength, ih (show m.length - 1 ≤ after.length by omega)]
        rfl

/-- **The matches of a text with a mark behind it** are those of the text, and then those behind
the mark. -/
theorem allMatches_append (hp : p.shuns mark = true) (hstay : p.canStay = false)
    (h : Text.SetOff mark tail) (text : List Char) :
    p.allMatches (text ++ tail) = (p.allMatches text).map (Match.map (Cursor.extend tail)) ++
      p.matchesBehind text.reverse 0 tail := by
  have happend := matchesBehind_append hp hstay h (Nat.zero_le text.length) []
  rwa [List.append_nil] at happend

end Pattern

theorem Match.part_extend (tail : List Char) (m : Match) (part : Part) :
    (m.map (Cursor.extend tail)).part part = m.part part := by
  rw [Match.part, Match.part?_map fun _ _ => Cursor.textTo_extend _ _, Match.part]

end LineLint
