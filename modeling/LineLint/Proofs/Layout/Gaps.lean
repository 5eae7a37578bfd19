import LineLint.Intent
import LineLint.Proofs.Layout.Lines
import LineLint.Proofs.Layout.Patterns
import LineLint.Proofs.Pattern.Progress
import Mathlib.Data.List.Basic

/-! # Gaps between words

Two patterns, those for the table behind a keyword and for a routine, look for a
gap that may run over line endings and indentation.  `Text.squeeze` leaves a
single blank of every gap and nothing of the white space at the start, which is
all the same for texts that are alike.

A pattern is `Loose` if it admits white space in whole gaps only and reads none
back.  It matches the squeezed text at the places that correspond to its matches
in the text itself, and reads the same there (`Pattern.find?_squeeze`).  Places
inside a gap correspond to none, so the theory keeps to `Settled` ones.
-/
namespace LineLint

namespace Text

/-- Whether white space or the start of the text stands in front, the nearest character being
first. -/
def behindSpace : List Char → Bool
  | c :: _ => isSpace c
  | [] => true

/-- Whether a text starts with white space. -/
def startsSpace : List Char → Bool
  | c :: _ => isSpace c
  | [] => false

/-- The text with one blank for every gap; `inGap` tells whether it starts inside of one. -/
def squeezeBehind (inGap : Bool) : List Char → List Char
  | [] => []
  | c :: rest =>
    if isSpace c then if inGap then squeezeBehind true rest else ' ' :: squeezeBehind true rest
    else c :: squeezeBehind false rest

/-- The text with one blank for every gap, and none at the start. -/
def squeeze (text : List Char) : List Char :=
  squeezeBehind true text

/-- What is left of the text in front of a place, nearest character first. -/
def squeezeBefore : List Char → List Char
  | [] => []
  | c :: before =>
    if isSpace c then
      if behindSpace before then squeezeBefore before else ' ' :: squeezeBefore before
    else c :: squeezeBefore before

section
variable {c : Char}

theorem squeezeBehind_solid (hc : isSpace c = false) (inGap : Bool) (rest : List Char) :
    squeezeBehind inGap (c :: rest) = c :: squeezeBehind false rest := by
  rw [squeezeBehind, hc]
  rfl

theorem squeezeBehind_space (hc : isSpace c = true) (rest : List Char) :
    squeezeBehind true (c :: rest) = squeezeBehind true rest := by
  rw [squeezeBehind, hc]
  rfl

theorem squeezeBehind_gap (hc : isSpace c = true) (rest : List Char) :
    squeezeBehind false (c :: rest) = ' ' :: squeezeBehind true rest := by
  rw [squeezeBehind, hc]
  rfl

theorem squeezeBefore_solid (hc : isSpace c = false) (before : List Char) :
    squeezeBefore (c :: before) = c :: squeezeBefore before := by
  rw [squeezeBefore, hc]
  rfl

theorem squeezeBehind_break (hc : isSpace c = true) (inGap : Bool) (a b : List Char) :
    squeezeBehind inGap (a ++ c :: b) =
      squeezeBehind inGap (a ++ ['\n']) ++ squeezeBehind true b := by
  have hn : isSpace '\n' = true := by decide
  induction a generalizing inGap with
  | nil =>
    cases inGap with
    | true =>
      rw [List.nil_append, squeezeBehind_space hc, List.nil_append, squeezeBehind_space hn]
      rfl
    | false =>
      rw [List.nil_append, squeezeBehind_gap hc, List.nil_append, squeezeBehind_gap hn]
      rfl
  | cons d a ih =>
    rw [List.cons_append, squeezeBehind, ih, ih, List.cons_append, squeezeBehind]
    cases isSpace d <;> cases inGap <;> rfl

end

/-- Texts that are alike have the same words, and so the same squeezed text. -/
theorem lineWise_squeeze : LineWise squeeze (fun line => squeeze (line ++ ['\n'])) (· ++ ·) where
  split a _ b hc := squeezeBehind_break (isSpace_of_endsLine hc) true a b
  empty _ := rfl
  blind _ line hc := squeezeBehind_space hc line
  front_blind _ line hc := squeezeBehind_space hc (line ++ ['\n'])

end Text

open Text (isSpace squeezeBehind squeezeBefore behindSpace)

namespace Cursor

/-- The corresponding place in the squeezed text. -/
def squeeze (place : Cursor) : Cursor :=
  ⟨squeezeBefore place.before, squeezeBehind (behindSpace place.before) place.after⟩

/-- Whether a place lies outside of gaps and of white space at the start of the text. -/
def Settled (place : Cursor) : Prop :=
  behindSpace place.before = true → Text.startsSpace place.after = false

variable {c : Char} {before rest : List Char}

theorem settled_of_solid_behind (hc : isSpace c = false) : Settled ⟨c :: before, rest⟩ := by
  intro hgap
  rw [behindSpace, hc] at hgap
  cases hgap

theorem settled_of_solid_ahead (hc : isSpace c = false) : Settled ⟨before, c :: rest⟩ :=
  fun _ => hc

theorem squeeze_of_solid_ahead (hc : isSpace c = false) :
    squeeze ⟨before, c :: rest⟩ = ⟨squeezeBefore before, c :: squeezeBehind false rest⟩ := by
  rw [squeeze, Text.squeezeBehind_solid hc]

theorem squeeze_of_solid_behind (hc : isSpace c = false) :
    squeeze ⟨c :: before, rest⟩ = ⟨c :: squeezeBefore before, squeezeBehind false rest⟩ := by
  rw [squeeze, Text.squeezeBefore_solid hc, behindSpace, hc]

/-- In front of a gap stands a word. -/
theorem Settled.squeeze_of_space_ahead (h : Settled ⟨before, c :: rest⟩) (hc : isSpace c = true) :
    behindSpace before = false ∧
      squeeze ⟨before, c :: rest⟩ = ⟨squeezeBefore before, ' ' :: squeezeBehind true rest⟩ := by
  have hword : behindSpace before = false := by
    cases hgap : behindSpace before with
    | false => rfl
    | true =>
      have hsolid : isSpace c = false := h hgap
      rw [hc] at hsolid
      cases hsolid
  refine ⟨hword, ?_⟩
  rw [squeeze, hword, Text.squeezeBehind_gap hc]

theorem touchesWord_of_behindSpace (h : behindSpace before = true) :
    touchesWord before = false := by
  cases before with
  | nil => rfl
  | cons c before => exact (Text.plain_of_isSpace h).word

theorem touchesWord_squeezeBefore (before : List Char) :
    touchesWord (squeezeBefore before) = touchesWord before := by
  induction before with
  | nil => rfl
  | cons c before ih =>
    cases hc : isSpace c with
    | false =>
      rw [Text.squeezeBefore_solid hc]
      rfl
    | true =>
      have hnone : touchesWord (c :: before) = false := touchesWord_of_behindSpace hc
      rw [squeezeBefore, hc, hnone]
      cases hgap : behindSpace before with
      | false => rfl
      | true => exact ih.trans (touchesWord_of_behindSpace hgap)

theorem Settled.atEdge_squeeze {place : Cursor} (h : place.Settled) :
    place.squeeze.atEdge = place.atEdge := by
  obtain ⟨before, after⟩ := place
  have hahead : touchesWord (squeezeBehind (behindSpace before) after) = touchesWord after := by
    cases after with
    | nil => rfl
    | cons c rest =>
      cases hc : isSpace c with
      | false =>
        rw [Text.squeezeBehind_solid hc]
        rfl
      | true =>
        rw [(h.squeeze_of_space_ahead hc).1, Text.squeezeBehind_gap hc]
        exact (Text.plain_of_isSpace hc).word.symm
  rw [atEdge, squeeze, touchesWord_squeezeBefore, hahead, atEdge]

/-- A run without white space goes equally far. -/
theorem Settled.runEnd_squeeze {accepts : Char → Bool} (hsolid : Text.solid accepts = true)
    {before after : List Char} (h : Settled ⟨before, after⟩) :
    runEnd accepts (squeezeBefore before) (squeezeBehind (behindSpace before) after) =
        (runEnd accepts before after).squeeze ∧
      (runEnd accepts before after).Settled := by
  induction after generalizing before with
  | nil => exact ⟨rfl, h⟩
  | cons c rest ih =>
    cases hc : isSpace c with
    | true =>
      -- the run stops in front of the gap in both texts
      obtain ⟨hword, hplace⟩ := h.squeeze_of_space_ahead hc
      have hblank : accepts ' ' = false := Text.eq_false_of_solid hsolid (by decide)
      rw [hword, Text.squeezeBehind_gap hc, runEnd, runEnd, Text.eq_false_of_solid hsolid hc,
        hblank]
      exact ⟨hplace.symm, h⟩
    | false =>
      rw [Text.squeezeBehind_solid hc, runEnd, runEnd]
      cases accepts c with
      | false => exact ⟨(squeeze_of_solid_ahead hc).symm, h⟩
      | true =>
        have hplace : Settled ⟨c :: before, rest⟩ := settled_of_solid_behind hc
        have hnext := ih hplace
        rw [Text.squeezeBefore_solid hc, behindSpace, hc] at hnext
        exact hnext

/-- The end of a gap is reached from the blank that is left of it. -/
theorem runEnd_isSpace_squeeze (hgap : behindSpace before = true) (rest : List Char) :
    runEnd isSpace (squeezeBefore before) (squeezeBehind true rest) =
        (runEnd isSpace before rest).squeeze ∧
      (runEnd isSpace before rest).Settled := by
  induction rest generalizing before with
  | nil => exact ⟨rfl, fun _ => rfl⟩
  | cons c rest ih =>
    cases hc : isSpace c with
    | true =>
      have hbefore : squeezeBefore (c :: before) = squeezeBefore before := by
        rw [squeezeBefore, hc, hgap]
        rfl
      rw [Text.squeezeBehind_space hc, runEnd, hc, ← hbefore]
      exact ih hc
    | false =>
      rw [Text.squeezeBehind_solid hc, runEnd, runEnd, hc]
      exact ⟨(squeeze_of_solid_ahead hc).symm, settled_of_solid_ahead hc⟩

/-- A stretch without white space is the same in the squeezed text. -/
theorem Spans.squeeze {taken : List Char} {start stop : Cursor} (h : Spans taken start stop)
    (hsolid : ∀ c ∈ taken, isSpace c = false) : Spans taken start.squeeze stop.squeeze := by
  induction taken generalizing start with
  | nil =>
    obtain ⟨hafter, hbefore⟩ := h
    rw [List.nil_append] at hafter
    rw [List.reverse_nil, List.nil_append] at hbefore
    rw [Cursor.squeeze, Cursor.squeeze, hafter, hbefore]
    exact Spans.refl _
  | cons c taken ih =>
    obtain ⟨before, after⟩ := start
    obtain ⟨rfl, hbefore⟩ := h
    obtain ⟨hc, htaken⟩ := List.forall_mem_cons.mp hsolid
    have hrest : Spans taken ⟨c :: before, taken ++ stop.after⟩ stop := by
      refine ⟨rfl, ?_⟩
      rw [hbefore, List.reverse_cons, List.append_assoc]
      rfl
    have hnext := ih hrest htaken
    rw [squeeze_of_solid_behind hc] at hnext
    rw [List.cons_append, squeeze_of_solid_ahead hc]
    exact hnext.cons

end Cursor

/-- Whether a pattern has been reached outside of gaps, over stretches without white space. -/
structure Reached.Settled (r : Reached) : Prop where
  place : r.place.Settled
  parts : ∀ found ∈ r.parts,
    Cursor.Within (fun c => isSpace c = false) found.2.1 found.2.2

namespace Pattern

/-- Whether a pattern admits white space in whole gaps only, and outside of named stretches. -/
inductive Loose : Pattern → Prop
  | here : Loose here
  | edge : Loose edge
  | char {accepts : Char → Bool} (h : Text.solid accepts = true) : Loose (char accepts)
  | run {accepts : Char → Bool} (h : Text.solid accepts = true) : Loose (run accepts)
  | gap : Loose gap
  | both {p q : Pattern} (hp : Loose p) (hq : Loose q) : Loose (p ++ q)
  | either {p q : Pattern} (hp : Loose p) (hq : Loose q) : Loose (p <|> q)
  | named {part : Part} {p : Pattern} (hp : Loose p)
      (hsolid : p.Within fun c => isSpace c = false) : Loose (named part p)

theorem reach_gap_squeeze {r : Reached} (hr : r.Settled) :
    gap.reach (r.map Cursor.squeeze) = (gap.reach r).map (Reached.map Cursor.squeeze) ∧
      ∀ s ∈ gap.reach r, s.Settled := by
  obtain ⟨⟨before, after⟩, parts⟩ := r
  cases after with
  | nil => exact ⟨rfl, List.forall_mem_nil _⟩
  | cons c rest =>
    cases hc : isSpace c with
    | false =>
      simp only [gap, oneOrMore, reach_append, Reached.map, Cursor.squeeze_of_solid_ahead hc, reach,
        hc]
      exact ⟨rfl, List.forall_mem_nil _⟩
    | true =>
      obtain ⟨hword, hplace⟩ := hr.place.squeeze_of_space_ahead hc
      have hblank : isSpace ' ' = true := by decide
      have hbefore : squeezeBefore (c :: before) = ' ' :: squeezeBefore before := by
        rw [squeezeBefore, hc, hword]
        rfl
      have hgap : behindSpace (c :: before) = true := hc
      have hend := Cursor.runEnd_isSpace_squeeze hgap rest
      rw [hbefore] at hend
      simp only [gap, oneOrMore, reach_append, Reached.map, hplace, reach, hc, hblank, if_true,
        List.flatMap_cons, List.flatMap_nil, List.append_nil, hend.1]
      refine ⟨rfl, ?_⟩
      intro s hs
      rw [List.mem_singleton.mp hs]
      exact ⟨hend.2, hr.parts⟩

/-- **A loose pattern reaches the corresponding places** in the squeezed text. -/
theorem Loose.reach_squeeze {p : Pattern} (h : p.Loose) {r : Reached} (hr : r.Settled) :
    p.reach (r.map Cursor.squeeze) = (p.reach r).map (Reached.map Cursor.squeeze) ∧
      ∀ s ∈ p.reach r, s.Settled := by
  induction h generalizing r with
  | here =>
    refine ⟨rfl, ?_⟩
    intro s hs
    rw [List.mem_singleton.mp hs]
    exact hr
  | edge =>
    have hedge : (r.map Cursor.squeeze).place.atEdge = r.place.atEdge := hr.place.atEdge_squeeze
    simp only [reach, hedge]
    cases r.place.atEdge with
    | false => exact ⟨rfl, List.forall_mem_nil _⟩
    | true =>
      refine ⟨rfl, ?_⟩
      intro s hs
      rw [List.mem_singleton.mp hs]
      exact hr
  | @char accepts hsolid =>
    obtain ⟨⟨before, after⟩, parts⟩ := r
    cases after with
    | nil => exact ⟨rfl, List.forall_mem_nil _⟩
    | cons c rest =>
      cases hc : isSpace c with
      | true =>
        have hblank : accepts ' ' = false := Text.eq_false_of_solid hsolid (by decide)
        simp only [reach, Reached.map, (hr.place.squeeze_of_space_ahead hc).2, hblank,
          Text.eq_false_of_solid hsolid hc]
        exact ⟨rfl, List.forall_mem_nil _⟩
      | false =>
        simp only [reach, Reached.map, Cursor.squeeze_of_solid_ahead hc]
        cases accepts c with
        | false => exact ⟨rfl, List.forall_mem_nil _⟩
        | true =>
          simp only [if_true, List.map_cons, List.map_nil, Reached.map,
            Cursor.squeeze_of_solid_behind hc, true_and]
          intro s hs
          rw [List.mem_singleton.mp hs]
          exact ⟨Cursor.settled_of_solid_behind hc, hr.parts⟩
  | @run accepts hsolid =>
    obtain ⟨hend, hsettled⟩ := hr.place.runEnd_squeeze hsolid
    simp only [reach, Reached.map, Cursor.squeeze] at hend ⊢
    rw [hend]
    refine ⟨rfl, ?_⟩
    intro s hs
    rw [List.mem_singleton.mp hs]
    exact ⟨hsettled, hr.parts⟩
  | gap => exact reach_gap_squeeze hr
  | @both p q _ _ ihp ihq =>
    obtain ⟨hp, hsettled⟩ := ihp hr
    rw [reach_append, reach_append, hp, List.flatMap_map, List.map_flatMap]
    refine ⟨List.flatMap_congr fun s hs => (ihq (hsettled s hs)).1, ?_⟩
    intro t ht
    obtain ⟨s, hs, ht⟩ := List.mem_flatMap.mp ht
    exact (ihq (hsettled s hs)).2 t ht
  | @either p q _ _ ihp ihq =>
    obtain ⟨hp, hsettledp⟩ := ihp hr
    obtain ⟨hq, hsettledq⟩ := ihq hr
    rw [reach_orElse, reach_orElse, hp, hq, List.map_append]
    refine ⟨rfl, ?_⟩
    intro s hs
    exact (List.mem_append.mp hs).elim (hsettledp s) (hsettledq s)
  | @named part p _ hsolid ih =>
    obtain ⟨hp, hsettled⟩ := ih hr
    rw [reach_named, reach_named, hp, List.map_map, List.map_map]
    refine ⟨rfl, ?_⟩
    intro s hs
    obtain ⟨t, ht, rfl⟩ := List.mem_map.mp hs
    exact ⟨(hsettled t ht).place,
      List.forall_mem_cons.mpr ⟨reach_within hsolid ht, (hsettled t ht).parts⟩⟩

/-- A match of a loose pattern reads the same in the squeezed text. -/
theorem Loose.at?_squeeze {p : Pattern} (h : p.Loose) {place : Cursor} (hplace : place.Settled) :
    (p.at? place.squeeze).map Match.part? = (p.at? place).map Match.part? := by
  have hstart : Reached.Settled ⟨place, []⟩ := ⟨hplace, List.forall_mem_nil _⟩
  have hreach := h.reach_squeeze hstart
  rw [at?_map hreach.1, Option.map_map]
  refine Option.map_congr ?_
  intro m hm
  obtain ⟨s, hs, rfl⟩ := exists_reach_of_at? hm
  funext part
  refine Match.part?_map ?_ part
  intro found hfound
  -- the stretch holds no white space, so nothing of it is squeezed out
  obtain ⟨taken, hspans, hsolid⟩ := (hreach.2 s hs).parts found hfound
  exact (hspans.squeeze hsolid).textTo_eq.trans hspans.textTo_eq.symm

theorem Loose.findBehind_squeeze {p : Pattern} (h : p.Loose) (hsolid : p.startsSolid = true)
    (before text : List Char) :
    (p.findBehind (squeezeBefore before) (squeezeBehind (behindSpace before) text)).map
        Match.part? = (p.findBehind before text).map Match.part? := by
  have hcons : ∀ before c rest, p.findBehind before (c :: rest) =
      (p.at? ⟨before, c :: rest⟩).or (p.findBehind (c :: before) rest) := by
    intro before c rest
    rw [findBehind]
    cases p.at? ⟨before, c :: rest⟩ <;> rfl
  induction text generalizing before with
  | nil =>
    have hend : Cursor.Settled ⟨before, []⟩ := fun _ => rfl
    exact h.at?_squeeze hend
  | cons c rest ih =>
    cases hc : isSpace c with
    | false =>
      have hplace : Cursor.Settled ⟨before, c :: rest⟩ := Cursor.settled_of_solid_ahead hc
      have hhere := h.at?_squeeze hplace
      have hrest := ih (c :: before)
      rw [Cursor.squeeze_of_solid_ahead hc] at hhere
      rw [Text.squeezeBefore_solid hc, behindSpace, hc] at hrest
      rw [Text.squeezeBehind_solid hc, hcons, hcons, Option.map_or, Option.map_or, hhere, hrest]
    | true =>
      -- no match starts at white space, so all of the gap can be passed at once
      have hrest := ih (c :: before)
      rw [squeezeBefore, behindSpace, hc] at hrest
      rw [hcons, at?_space hsolid hc, Option.none_or, ← hrest]
      cases hgap : behindSpace before with
      | true =>
        rw [Text.squeezeBehind_space hc]
        rfl
      | false =>
        rw [Text.squeezeBehind_gap hc, hcons, at?_space hsolid (by decide), Option.none_or]
        rfl

/-- **A loose pattern reads the same in the squeezed text.** -/
theorem Loose.find?_squeeze {p : Pattern} (h : p.Loose) (hsolid : p.startsSolid = true)
    (text : List Char) :
    (p.find? (Text.squeeze text)).map Match.part? = (p.find? text).map Match.part? :=
  h.findBehind_squeeze hsolid [] text

/-- A loose pattern reads the same in texts that are alike. -/
theorem Loose.find?_congr {p : Pattern} (h : p.Loose) (hsolid : p.startsSolid = true)
    {a b : List Char} (hab : Text.Alike a b) :
    (p.find? a).map Match.part? = (p.find? b).map Match.part? := by
  rw [← h.find?_squeeze hsolid a, Text.lineWise_squeeze.congr hab, h.find?_squeeze hsolid b]

/-! ## Building blocks -/

theorem loose_word {keyword : String}
    (h : keyword.toList.all (fun letter => Text.solid (foldsTo letter)) = true) :
    (word keyword).Loose := by
  refine of_sequence (P := Loose) .here (fun _ _ => .both) ?_
  intro p hp
  obtain ⟨letter, hletter, rfl⟩ := List.mem_map.mp hp
  exact .char (List.all_eq_true.mp h letter hletter)

end Pattern

/-! ## Tables and routines -/

namespace Intent

open Pattern

theorem loose_tablePattern {keyword : String}
    (h : keyword.toList.all (fun letter => Text.solid (foldsTo letter)) = true) :
    (tablePattern keyword).Loose := by
  have hclass : Text.solid (fun c => isLetter c || c.isDigit || "[]_.".toList.contains c) =
      true := by decide
  have hwithin : ∀ c : Char,
      (isLetter c || c.isDigit || "[]_.".toList.contains c) = true → isSpace c = false :=
    fun _ hc => Text.not_isSpace_of_solid hclass hc
  exact .both (.both (.both .edge (loose_word h)) .gap)
    (.named (.both (.char hclass) (.run hclass)) ⟨hwithin, hwithin⟩)

theorem loose_createRoutinePattern : createRoutinePattern.Loose := by
  have hroutine : (words ["PROC", "PROCEDURE", "FUNCTION"]).Loose := by
    refine of_anyOf (P := Loose) (.char (by decide)) (fun _ _ => .either) ?_
    intro p hp
    obtain ⟨keyword, hkeyword, rfl⟩ := List.mem_map.mp hp
    simp only [List.mem_cons, List.not_mem_nil, or_false] at hkeyword
    rcases hkeyword with rfl | rfl | rfl <;> exact loose_word (by decide)
  exact .both (.both (.both (.both .edge (loose_word (by decide))) .gap) hroutine) .edge

/-- The table behind a keyword is the same in texts that are alike. -/
theorem tableBehind_congr {keyword : String}
    (hletters : keyword.toList.all (fun letter => Text.solid (foldsTo letter)) = true)
    (hsolid : (tablePattern keyword).startsSolid = true) {a b : List Char}
    (hab : Text.Alike a b) : tableBehind keyword a = tableBehind keyword b := by
  have hfind := (loose_tablePattern hletters).find?_congr hsolid hab
  rw [tableBehind, tableBehind]
  cases ha : (tablePattern keyword).find? a with
  | none =>
    cases hb : (tablePattern keyword).find? b with
    | none => rfl
    | some n =>
      rw [ha, hb] at hfind
      cases hfind
  | some m =>
    cases hb : (tablePattern keyword).find? b with
    | none =>
      rw [ha, hb] at hfind
      cases hfind
    | some n =>
      rw [ha, hb] at hfind
      have hname : m.part .name = n.part .name :=
        congrArg (fun read : Part → Option (List Char) => (read .name).getD [])
          (Option.some.inj hfind)
      simp only [hname]

theorem occursIn_createRoutinePattern_congr {a b : List Char} (hab : Text.Alike a b) :
    createRoutinePattern.occursIn a = createRoutinePattern.occursIn b := by
  have hfind := loose_createRoutinePattern.find?_congr (by decide) hab
  rw [occursIn, occursIn, ← Option.isSome_map (f := Match.part?), hfind, Option.isSome_map]

end Intent
end LineLint
