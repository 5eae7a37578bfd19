import LineLint.Proofs.Pattern.Choices
import LineLint.Proofs.Pattern.Marks

/-! # Texts with one more mark at the end

What a pattern reaches in front of the end of a text does not depend on what is put behind
the text, whatever the pattern (`Pattern.filter_reach_extend`).  At the end it may: a run
of white space goes on if there is more of it.

So a pattern is not misled by one more character if what it takes last is solid.  It
`stopsShort` of the character: its last part shuns it and takes something, so that part
sets out from a place in front of the end, or else not at all (`Pattern.reach_extend_mark`).
-/
namespace LineLint

namespace Cursor
variable {accepts : Char → Bool} {n : Nat} {tail : List Char}

/-- Whether more than `n` characters are ahead of a place. -/
def isAhead (n : Nat) (place : Cursor) : Bool :=
  n < place.after.length

theorem isAhead_eq_false {place : Cursor} (h : place.after.length ≤ n) :
    place.isAhead n = false :=
  decide_eq_false (Nat.not_lt.mpr h)

theorem isAhead_extend (tail : List Char) (place : Cursor) :
    (place.extend tail).isAhead tail.length = place.isAhead 0 := by
  simp only [isAhead, extend, List.length_append, decide_eq_decide]
  omega

theorem filter_map_extend (tail : List Char) (places : List Cursor) :
    (places.map (extend tail)).filter (isAhead tail.length) =
      (places.filter (isAhead 0)).map (extend tail) := by
  rw [List.filter_map]
  congr 2
  funext place
  exact isAhead_extend tail place

/-- A run through the last characters of a text stops at no place ahead of them. -/
theorem filter_runStops (h : tail.length ≤ n) (before : List Char) (nearer : List Cursor) :
    (runStops accepts before tail nearer).filter (isAhead n) = nearer.filter (isAhead n) := by
  induction tail generalizing before nearer with
  | nil => rw [runStops, List.filter_cons_of_neg (by simp [isAhead])]
  | cons c tail ih =>
    have hhere : ¬ (⟨before, c :: tail⟩ : Cursor).isAhead n = true :=
      Bool.not_eq_true _ ▸ isAhead_eq_false h
    rw [runStops]
    split
    · rw [ih (Nat.le_of_succ_le h), List.filter_cons_of_neg hhere]
    · rw [List.filter_cons_of_neg hhere]

theorem filter_runStops_extend (accepts : Char → Bool) (tail before after : List Char)
    (nearer : List Cursor) :
    (runStops accepts before (after ++ tail) (nearer.map (extend tail))).filter
        (isAhead tail.length) =
      ((runStops accepts before after nearer).filter (isAhead 0)).map (extend tail) := by
  induction after generalizing before nearer with
  | nil =>
    rw [List.nil_append, filter_runStops (Nat.le_refl _), filter_map_extend, runStops,
      List.filter_cons_of_neg (by simp [isAhead])]
  | cons c after ih =>
    rw [List.cons_append, runStops, runStops]
    split
    · exact ih (c :: before) (⟨before, c :: after⟩ :: nearer)
    · exact filter_map_extend tail (⟨before, c :: after⟩ :: nearer)

theorem filter_runEnd_extend (accepts : Char → Bool) (tail before after : List Char) :
    [runEnd accepts before (after ++ tail)].filter (isAhead tail.length) =
      ([runEnd accepts before after].filter (isAhead 0)).map (extend tail) := by
  induction after generalizing before with
  | nil =>
    have hwithin : Within (fun _ => True) ⟨before, tail⟩ (runEnd accepts before tail) :=
      within_runEnd (fun _ _ => trivial) before tail
    obtain ⟨taken, ⟨hafter, -⟩, -⟩ := hwithin
    have hlength := congrArg List.length hafter
    rw [List.length_append] at hlength
    have hle : (runEnd accepts before tail).after.length ≤ tail.length := by
      simp only at hlength
      omega
    rw [List.nil_append, List.filter_cons_of_neg (by simp [isAhead_eq_false hle])]
    rfl
  | cons c after ih =>
    rw [List.cons_append, runEnd, runEnd]
    split
    · exact ih (c :: before)
    · exact filter_map_extend tail [⟨before, c :: after⟩]

end Cursor

/-- Whether more than `n` characters are ahead of the place. -/
def Reached.isAhead (n : Nat) (r : Reached) : Bool :=
  r.place.isAhead n

theorem filter_isAhead_eq_nil {n : Nat} {rs : List Reached}
    (h : ∀ r ∈ rs, r.place.after.length ≤ n) : rs.filter (Reached.isAhead n) = [] := by
  refine List.filter_eq_nil_iff.mpr ?_
  intro r hr
  rw [Bool.not_eq_true]
  exact Cursor.isAhead_eq_false (h r hr)

/-- Of what follows in one step each, only what follows from places ahead is ahead. -/
theorem filter_flatMap_isAhead {n : Nat} {step : Reached → List Reached}
    (h : ∀ r, ∀ s ∈ step r, s.place.after.length ≤ r.place.after.length) (rs : List Reached) :
    (rs.flatMap step).filter (Reached.isAhead n) =
      (rs.filter (Reached.isAhead n)).flatMap fun r => (step r).filter (Reached.isAhead n) := by
  induction rs with
  | nil => rfl
  | cons r rs ih =>
    rw [List.flatMap_cons, List.filter_append, ih]
    cases hr : r.isAhead n with
    | true => rw [List.filter_cons_of_pos hr, List.flatMap_cons]
    | false =>
      have hle : r.place.after.length ≤ n := Nat.not_lt.mp (of_decide_eq_false hr)
      rw [filter_isAhead_eq_nil fun s hs => Nat.le_trans (h r s hs) hle,
        List.filter_cons_of_neg (by simp [hr]), List.nil_append]

theorem filter_map_extend (tail : List Char) (rs : List Reached) :
    (rs.map (Reached.map (Cursor.extend tail))).filter (Reached.isAhead tail.length) =
      (rs.filter (Reached.isAhead 0)).map (Reached.map (Cursor.extend tail)) := by
  rw [List.filter_map]
  congr 2
  funext r
  exact Cursor.isAhead_extend tail r.place

/-- Places that are alike in front of the end of a text are so with stretches passed on the way. -/
theorem filter_places_extend {places others : List Cursor}
    (h : others.filter (Cursor.isAhead tail.length) =
      (places.filter (Cursor.isAhead 0)).map (Cursor.extend tail))
    (parts : List (Part × Cursor × Cursor)) :
    (others.map fun place =>
        (⟨place, parts.map fun part =>
          (part.1, part.2.1.extend tail, part.2.2.extend tail)⟩ : Reached)).filter
        (Reached.isAhead tail.length) =
      ((places.map fun place => (⟨place, parts⟩ : Reached)).filter (Reached.isAhead 0)).map
        (Reached.map (Cursor.extend tail)) := by
  rw [List.filter_map, List.filter_map, List.map_map]
  exact (congrArg (List.map _) h).trans List.map_map

/-- Steps that are alike in front of the end of a text are so however often they are taken. -/
theorem filter_iterate_extend {step : Reached → List Reached}
    (hle : ∀ r, ∀ s ∈ step r, s.place.after.length ≤ r.place.after.length)
    (h : ∀ r, (step (r.map (Cursor.extend tail))).filter (Reached.isAhead tail.length) =
      ((step r).filter (Reached.isAhead 0)).map (Reached.map (Cursor.extend tail)))
    (bound : List Char) (r : Reached) :
    (iterate step bound (r.map (Cursor.extend tail))).filter (Reached.isAhead tail.length) =
      ((iterate step bound r).filter (Reached.isAhead 0)).map
        (Reached.map (Cursor.extend tail)) := by
  have hmore : ∀ bound r, ∀ s ∈ iterate step bound r,
      s.place.after.length ≤ r.place.after.length := by
    intro bound r s hs
    exact of_mem_iterate (I := fun t => t.place.after.length ≤ r.place.after.length)
      (fun t u hu ht => Nat.le_trans (hle t u hu) ht) hs (Nat.le_refl _)
  induction bound generalizing r with
  | nil => exact filter_map_extend tail [r]
  | cons c bound ih =>
    rw [iterate_cons, iterate_cons, List.filter_append, List.filter_append, List.map_append,
      filter_flatMap_isAhead (hmore bound), filter_flatMap_isAhead (hmore bound), h,
      List.flatMap_map, List.map_flatMap]
    congr 1
    · exact List.flatMap_congr fun t _ => ih t
    · exact filter_map_extend tail [r]

namespace Pattern
variable {p q : Pattern} {mark : Char}

/-- Whether every repetition in a pattern takes something each round. -/
def isProgressive : Pattern → Bool
  | repeated p => !p.canStay && p.isProgressive
  | both p q | either p q => p.isProgressive && q.isProgressive
  | named _ p => p.isProgressive
  | here | char _ | many _ | run _ | edge | textStart | textEnd => true

/-- From the end of the text, nothing is reached that is ahead of it. -/
theorem filter_reach_extend_of_cons {r : Reached}
    (h : ∀ c after, r.place.after = c :: after →
      (p.reach (r.map (Cursor.extend tail))).filter (Reached.isAhead tail.length) =
        ((p.reach r).filter (Reached.isAhead 0)).map (Reached.map (Cursor.extend tail))) :
    (p.reach (r.map (Cursor.extend tail))).filter (Reached.isAhead tail.length) =
      ((p.reach r).filter (Reached.isAhead 0)).map (Reached.map (Cursor.extend tail)) := by
  cases hafter : r.place.after with
  | cons c after => exact h c after hafter
  | nil =>
    have hextend : (r.map (Cursor.extend tail)).place.after = tail := by
      simp [Reached.map, Cursor.extend, hafter]
    rw [filter_isAhead_eq_nil, filter_isAhead_eq_nil]
    · rfl
    · intro s hs
      simpa [hafter] using length_le_of_mem_reach hs
    · intro s hs
      simpa [hextend] using length_le_of_mem_reach hs

/-- **What is reached in front of the end of a text does not depend on what follows.** -/
theorem filter_reach_extend (hp : p.isProgressive = true) (tail : List Char) (r : Reached) :
    (p.reach (r.map (Cursor.extend tail))).filter (Reached.isAhead tail.length) =
      ((p.reach r).filter (Reached.isAhead 0)).map (Reached.map (Cursor.extend tail)) := by
  induction p generalizing r with
  | here => exact filter_map_extend tail [r]
  | char accepts =>
    refine filter_reach_extend_of_cons fun c after hafter => ?_
    obtain ⟨⟨before, rest⟩, parts⟩ := r
    obtain rfl : rest = c :: after := hafter
    simp only [reach, Reached.map, Cursor.extend, List.cons_append]
    cases accepts c with
    | false => rfl
    | true => exact filter_map_extend tail [⟨⟨c :: before, after⟩, parts⟩]
  | many accepts =>
    exact filter_places_extend
      (Cursor.filter_runStops_extend accepts tail r.place.before r.place.after []) r.parts
  | run accepts =>
    exact filter_places_extend
      (Cursor.filter_runEnd_extend accepts tail r.place.before r.place.after) r.parts
  | edge =>
    refine filter_reach_extend_of_cons fun c after hafter => ?_
    have hedge : (r.map (Cursor.extend tail)).place.atEdge = r.place.atEdge := by
      simp only [Reached.map, Cursor.extend, Cursor.atEdge, hafter, List.cons_append,
        Cursor.touchesWord]
    simp only [reach, hedge]
    cases r.place.atEdge with
    | false => rfl
    | true => exact filter_map_extend tail [r]
  | textStart =>
    simp only [reach]
    rw [show (r.map (Cursor.extend tail)).place.before = r.place.before from rfl]
    cases r.place.before.isEmpty with
    | false => rfl
    | true => exact filter_map_extend tail [r]
  | textEnd =>
    refine filter_reach_extend_of_cons fun c after hafter => ?_
    simp [reach, Reached.map, Cursor.extend, hafter]
  | both p q ihp ihq =>
    obtain ⟨hp, hq⟩ := Bool.and_eq_true_iff.mp hp
    simp only [reach]
    rw [filter_flatMap_isAhead (fun _ _ => length_le_of_mem_reach), ihp hp, List.flatMap_map,
      filter_flatMap_isAhead (fun _ _ => length_le_of_mem_reach), List.map_flatMap]
    exact List.flatMap_congr fun t _ => ihq hq t
  | either p q ihp ihq =>
    obtain ⟨hp, hq⟩ := Bool.and_eq_true_iff.mp hp
    simp only [reach]
    rw [List.filter_append, ihp hp, ihq hq, List.filter_append, List.map_append]
  | repeated p ih =>
    obtain ⟨hstay, hp⟩ := Bool.and_eq_true_iff.mp hp
    -- the longer text allows more rounds, but there are none to take
    have hbound : iterate p.reach r.place.after r = iterate p.reach (r.place.after ++ tail) r :=
      iterate_eq_of_length_le
        (fun _ _ hs => length_lt_of_mem_reach ((Bool.not_eq_true' _).mp hstay) hs)
        (Nat.le_refl _) (by simp)
    simp only [reach]
    rw [hbound]
    exact filter_iterate_extend (fun _ _ => length_le_of_mem_reach) (ih hp) _ r
  | named part p ih =>
    simp only [reach]
    rw [List.filter_map, List.filter_map, List.map_map]
    exact (congrArg (List.map _) (ih hp r)).trans List.map_map

/-! ## One more mark -/

theorem begins_eq_false_of_shuns (hp : p.shuns mark = true) : p.begins mark = false := by
  induction p with
  | here | edge | textStart | textEnd => rfl
  | char accepts | many accepts | run accepts => exact (Bool.not_eq_true' _).mp hp
  | both p q ihp ihq =>
    obtain ⟨hp, hq⟩ := Bool.and_eq_true_iff.mp hp
    simp [begins, ihp hp, ihq hq]
  | either p q ihp ihq =>
    obtain ⟨hp, hq⟩ := Bool.and_eq_true_iff.mp hp
    simp [begins, ihp hp, ihq hq]
  | repeated p ih => exact ih (Bool.and_eq_true_iff.mp hp).2
  | named part p ih => exact ih hp

/-- What is left of a text stands at its end. -/
theorem suffix_of_mem_reach {r s : Reached} (hs : s ∈ p.reach r) :
    s.place.after <:+ r.place.after := by
  obtain ⟨taken, hspans, -⟩ := reach_within (within_true p) hs
  exact ⟨taken, hspans.1.symm⟩

/-- Whether one more mark at the end of the text does not mislead a pattern: no class accepts it,
or else one does, but what stands behind takes something that is no mark. -/
def stopsShort (mark : Char) : Pattern → Bool
  | both p q =>
    (p.stopsShort mark && q.stopsShort mark) ||
      (p.isProgressive && q.shuns mark && !q.canStay)
  | either p q => p.stopsShort mark && q.stopsShort mark
  | named _ p => p.stopsShort mark
  | repeated p => !p.canStay && p.shuns mark
  | char accepts | many accepts | run accepts => !accepts mark
  | here | edge | textStart => true
  | textEnd => false

/-- A pattern that takes something, but not the mark, does not set out at the end of a text with
or without the mark. -/
theorem reach_eq_nil_of_shuns (hq : q.shuns mark = true) (hstay : q.canStay = false)
    {r : Reached} (h : r.place.after <:+ [mark]) : q.reach r = [] := by
  refine List.eq_nil_iff_forall_not_mem.mpr fun s hs => ?_
  rcases setsOut_of_mem_reach hs with ⟨-, htrue⟩ | ⟨c, rest, hafter, hbegins⟩
  · rw [hstay] at htrue
    cases htrue
  · have hc : c ∈ [mark] := h.subset (hafter ▸ List.mem_cons_self)
    rw [List.mem_singleton.mp hc, begins_eq_false_of_shuns hq] at hbegins
    cases hbegins

/-- Such a pattern goes on only from places that are ahead. -/
theorem flatMap_filter_isAhead (hq : q.shuns mark = true) (hstay : q.canStay = false) (n : Nat)
    (rs : List Reached) (h : ∀ r ∈ rs, r.place.after.length ≤ n → r.place.after <:+ [mark]) :
    rs.flatMap q.reach = (rs.filter (Reached.isAhead n)).flatMap q.reach := by
  induction rs with
  | nil => rfl
  | cons r rs ih =>
    rw [List.flatMap_cons, ih fun s hs => h s (List.mem_cons_of_mem r hs)]
    cases hr : r.isAhead n with
    | true => rw [List.filter_cons_of_pos hr, List.flatMap_cons]
    | false =>
      have hle : r.place.after.length ≤ n := Nat.not_lt.mp (of_decide_eq_false hr)
      rw [reach_eq_nil_of_shuns hq hstay (h r List.mem_cons_self hle),
        List.filter_cons_of_neg (by simp [hr]), List.nil_append]

/-- One more mark does not matter if a pattern behind takes something that is no mark. -/
theorem reach_append_extend_mark (hp : p.isProgressive = true) (hq : q.shuns mark = true)
    (hstay : q.canStay = false) (hword : Text.isWordChar mark = false) (r : Reached) :
    (p ++ q).reach (r.map (Cursor.extend [mark])) =
      ((p ++ q).reach r).map (Reached.map (Cursor.extend [mark])) := by
  have hlong := flatMap_filter_isAhead hq hstay 1 (p.reach (r.map (Cursor.extend [mark])))
    fun t ht hle =>
      List.suffix_of_suffix_length_le (suffix_of_mem_reach ht) (List.suffix_append _ _) hle
  have hshort := flatMap_filter_isAhead hq hstay 0 (p.reach r) fun t _ hle => by
    rw [List.eq_nil_of_length_eq_zero (Nat.le_zero.mp hle)]
    exact List.nil_suffix
  have hahead := filter_reach_extend hp [mark] r
  rw [List.length_singleton] at hahead
  rw [reach_append, reach_append, hlong, hshort, hahead, List.flatMap_map, List.map_flatMap]
  exact List.flatMap_congr fun t _ => reach_extend hq ⟨by simp, hword⟩ t

/-- **One more mark at the end of the text is not seen by a pattern that stops short of it.** -/
theorem reach_extend_mark (hp : p.stopsShort mark = true) (hword : Text.isWordChar mark = false)
    (r : Reached) :
    p.reach (r.map (Cursor.extend [mark])) =
      (p.reach r).map (Reached.map (Cursor.extend [mark])) := by
  have hmark : Text.SetOff mark [mark] := ⟨by simp, hword⟩
  induction p generalizing r with
  | textEnd => cases hp
  | here | char accepts | many accepts | run accepts | edge | textStart | repeated p =>
    refine reach_extend ?_ hmark r
    exact hp
  | both p q ihp ihq =>
    simp only [reach]
    rcases Bool.or_eq_true_iff.mp hp with hpq | hq
    · obtain ⟨hp, hq⟩ := Bool.and_eq_true_iff.mp hpq
      rw [ihp hp, List.flatMap_map, List.map_flatMap]
      simp only [ihq hq]
    · obtain ⟨hpq, hstay⟩ := Bool.and_eq_true_iff.mp hq
      obtain ⟨hp, hq⟩ := Bool.and_eq_true_iff.mp hpq
      exact reach_append_extend_mark hp hq ((Bool.not_eq_true' _).mp hstay) hword r
  | either p q ihp ihq =>
    obtain ⟨hp, hq⟩ := Bool.and_eq_true_iff.mp hp
    simp only [reach]
    rw [ihp hp, ihq hq, List.map_append]
  | named part p ih =>
    simp only [reach]
    rw [ih hp, List.map_map, List.map_map]
    rfl

/-- The first match of an anchored pattern is the same with one more mark. -/
theorem find?_append_mark (hanchored : p.isAnchored = true) (hp : p.stopsShort mark = true)
    (hword : Text.isWordChar mark = false) (text : List Char) :
    p.find? (text ++ [mark]) = (p.find? text).map (Match.map (Cursor.extend [mark])) := by
  rw [find?_of_isAnchored hanchored, find?_of_isAnchored hanchored]
  exact at?_map (reach_extend_mark hp hword ⟨⟨[], text⟩, []⟩)

/-- It is so with a comment behind the text as well, set off by a space. -/
theorem find?_append_comment (hanchored : p.isAnchored = true) (hshuns : p.shuns mark = true)
    (hword : Text.isWordChar mark = false) (hspace : p.stopsShort ' ' = true)
    (text comment : List Char) :
    p.find? (text ++ ' ' :: mark :: comment) =
      (p.find? text).map (Match.map (Cursor.extend (' ' :: mark :: comment))) := by
  have hcomment : Text.SetOff mark (mark :: comment) := ⟨by simp, hword⟩
  have htext : text ++ ' ' :: mark :: comment = (text ++ [' ']) ++ mark :: comment := by simp
  rw [htext, find?_append_of_shuns hanchored hshuns hcomment,
    find?_append_mark hanchored hspace (by decide), Option.map_map]
  refine Option.map_congr fun m _ => ?_
  simp [Match.map, Cursor.extend, Function.comp_def]

end Pattern
end LineLint
