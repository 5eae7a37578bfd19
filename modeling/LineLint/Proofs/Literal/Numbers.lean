import LineLint.Proofs.Pattern.Runs
import LineLint.Proofs.Pattern.Sweep
import LineLint.Rule.RepeatedLiteral

/-! # Numbers on a line

A number is made of digits, or of digits, a point and digits, and touches no word on
either side (`Literal.Numeral`, `Literal.NumberAt`).  Digits on their own are a number only
if no fraction follows.  A fraction whose digits run into a word is none.

Numbers are read from left to right: of numerals with a point between them, every
other one is the fraction of the one before, so that `1.2.3` is `1.2` and `3`.  The sweep
of the pattern for numbers finds exactly these (`Literal.mem_numbers_iff`).
-/
namespace LineLint

/-- One pass over `outer` is enough to see that each entry of a list lies inside one of `outer`,
if both lists are in the same order. -/
theorem exists_mem_of_foldl_dropWhile {α β : Type} {inside : β → α → Bool} {outer : List β}
    {inner : List α}
    (h : outer.foldl (fun rest b => rest.dropWhile (inside b)) inner = []) :
    ∀ a ∈ inner, ∃ b ∈ outer, inside b a = true := by
  induction outer generalizing inner with
  | nil =>
    rw [show inner = [] from h]
    exact List.forall_mem_nil _
  | cons b outer ih =>
    intro a ha
    rw [← List.takeWhile_append_dropWhile (p := inside b) (l := inner)] at ha
    rcases List.mem_append.mp ha with ha | ha
    · exact ⟨b, List.mem_cons_self, List.all_eq_true.mp List.all_takeWhile a ha⟩
    · obtain ⟨b', hb', hinside⟩ := ih h a ha
      exact ⟨b', List.mem_cons_of_mem b hb', hinside⟩

/-- Digits belong to words. -/
theorem Text.isWordChar_of_isDigit {c : Char} (h : isDigit c = true) : isWordChar c = true := by
  have hranges : furtherWordChars.foldl (fun rest words => rest.dropWhile fun digits =>
      Nat.ble words.1 digits.1 && Nat.ble digits.2 words.2) furtherDigits = [] := by
    decide +kernel
  rw [isDigit] at h
  rw [isWordChar]
  by_cases hc : c.toNat < 0x80
  · rw [if_pos hc] at h ⊢
    simp [isNameChar, Char.isAlphanum, h]
  · rw [if_neg hc] at h ⊢
    obtain ⟨digits, hdigits, hlow, hhigh⟩ := (inRanges_iff _ _).mp h
    obtain ⟨words, hwords, hinside⟩ := exists_mem_of_foldl_dropWhile hranges digits hdigits
    obtain ⟨hlow', hhigh'⟩ := Bool.and_eq_true_iff.mp hinside
    exact (inRanges_iff _ _).mpr ⟨words, hwords,
      Nat.le_trans (Nat.le_of_ble_eq_true hlow') hlow,
      Nat.le_trans hhigh (Nat.le_of_ble_eq_true hhigh')⟩

namespace Literal

open Pattern
open Cursor (touchesWord)
open Text (Run isDigit)

/-! ## Numerals -/

/-- Whether a text is made of digits, of one at least. -/
def IsDigits (text : List Char) : Prop :=
  text ≠ [] ∧ ∀ c ∈ text, isDigit c = true

/-- Whether a text begins with a point and digits that touch no word. -/
def BeginsFraction (back : List Char) : Prop :=
  ∃ fraction rest, back = '.' :: (fraction ++ rest) ∧ IsDigits fraction ∧ touchesWord rest = false

/-- The ways to write a number in front of `back`. -/
inductive Numeral (back : List Char) : List Char → Prop
  /-- Digits, if no fraction follows. -/
  | whole {digits : List Char} (hdigits : IsDigits digits) (hback : ¬ BeginsFraction back) :
    Numeral back digits
  /-- Digits, a point and digits. -/
  | decimal {whole fraction : List Char} (hwhole : IsDigits whole)
    (hfraction : IsDigits fraction) : Numeral back (whole ++ '.' :: fraction)

/-- How many numerals stand directly in front of a place, each with a point behind it.  The
text is given nearest character first. -/
def pointed : List Char → Nat
  | '.' :: before =>
    if before.takeWhile isDigit = [] ∨ touchesWord (before.dropWhile isDigit) = true then 0
    else pointed (before.dropWhile isDigit) + 1
  | _ => 0
termination_by before => before.length
decreasing_by
  have hle := (List.dropWhile_sublist isDigit (l := before)).length_le
  rw [List.length_cons]
  omega

/-- Whether a number, written as `digits`, stands on a line, behind `column` characters. -/
def NumberAt (line : List Char) (column : Nat) (digits : List Char) : Prop :=
  ∃ front back, line = front ++ (digits ++ back) ∧ front.length = column ∧
    touchesWord front.reverse = false ∧ touchesWord back = false ∧ Numeral back digits ∧
    Even (pointed front.reverse)

variable {before after front back digits whole fraction rest line : List Char} {m : Match}

/-- A text that touches no word begins with no digit. -/
theorem stops_of_touchesWord (h : touchesWord rest = false) :
    ∀ c ∈ rest.head?, isDigit c = false := by
  intro c hc
  cases rest with
  | nil => cases hc
  | cons d rest =>
    obtain rfl : d = c := by simpa using hc
    cases hdigit : isDigit d with
    | false => rfl
    | true => rw [touchesWord, Text.isWordChar_of_isDigit hdigit] at h; cases h

theorem IsDigits.run (h : IsDigits digits) (hrest : touchesWord rest = false) :
    Run isDigit digits rest :=
  ⟨h.2, stops_of_touchesWord hrest⟩

theorem IsDigits.touchesWord_append (h : IsDigits digits) (rest : List Char) :
    touchesWord (digits ++ rest) = true := by
  obtain ⟨c, digits, rfl⟩ := List.exists_cons_of_ne_nil h.1
  exact Text.isWordChar_of_isDigit (h.2 c List.mem_cons_self)

theorem IsDigits.reverse (h : IsDigits digits) : IsDigits digits.reverse :=
  ⟨mt List.reverse_eq_nil_iff.mp h.1, fun c hc => h.2 c (List.mem_reverse.mp hc)⟩

theorem IsDigits.point_not_mem (h : IsDigits digits) : '.' ∉ digits := by
  intro hmem
  exact absurd (h.2 '.' hmem) (by decide)

/-- Digits without a point are a number unless a fraction follows. -/
theorem IsDigits.numeral_iff (h : IsDigits digits) :
    Numeral back digits ↔ ¬ BeginsFraction back := by
  constructor
  · intro hnumeral
    cases hnumeral with
    | whole _ hback => exact hback
    | decimal => exact absurd (by simp) h.point_not_mem
  · exact Numeral.whole h

/-- Whether a number stands behind `front`, on a line that is cut there. -/
theorem numberAt_append_iff :
    NumberAt (front ++ (digits ++ back)) front.length digits ↔
      touchesWord front.reverse = false ∧ touchesWord back = false ∧ Numeral back digits ∧
        Even (pointed front.reverse) := by
  constructor
  · rintro ⟨front', back', hline, hlength, hnumber⟩
    obtain ⟨rfl, hrest⟩ := List.append_inj hline hlength.symm
    rwa [List.append_cancel_left hrest]
  · exact fun h => ⟨front, back, rfl, rfl, h⟩

/-! ## A number at a place -/

/-- The match of a number between `before`, nearest character first, and `back`. -/
def numberMatch (before digits back : List Char) : Match where
  start := ⟨before, digits ++ back⟩
  stop := ⟨digits.reverse ++ before, back⟩
  parts := []

@[simp] theorem offset_numberMatch (before digits back : List Char) :
    (numberMatch before digits back).offset = before.length := rfl

@[simp] theorem length_numberMatch (before digits back : List Char) :
    (numberMatch before digits back).length = digits.length := by
  simp [numberMatch, Match.length]

@[simp] theorem text_numberMatch (before digits back : List Char) :
    (numberMatch before digits back).text = digits := by
  simp [numberMatch, Match.text, Cursor.textTo]

/-- A point and digits. -/
def fractionPattern : Pattern :=
  exactly '.' ++ oneOrMore isDigit

/-- A fraction is taken whole. -/
theorem reach_fraction (hfraction : IsDigits fraction)
    (hrest : ∀ c ∈ rest.head?, isDigit c = false) :
    fractionPattern.reach ⟨⟨before, '.' :: (fraction ++ rest)⟩, []⟩ =
      [⟨⟨fraction.reverse ++ '.' :: before, rest⟩, []⟩] := by
  have hrun : Run isDigit fraction rest := ⟨hfraction.2, hrest⟩
  rw [fractionPattern, reach_append, reach_exactly, if_pos rfl, List.flatMap_singleton,
    reach_oneOrMore hrun hfraction.1]

/-- Behind digits, the edge of a word is where no word goes on. -/
theorem reach_edge_digits (hdigits : IsDigits digits) (before rest : List Char) :
    edge.reach ⟨⟨digits.reverse ++ before, rest⟩, []⟩ =
      if touchesWord rest then [] else [⟨⟨digits.reverse ++ before, rest⟩, []⟩] := by
  simp only [reach, Cursor.atEdge, hdigits.reverse.touchesWord_append, Bool.true_bne,
    Bool.not_eq_true']
  cases touchesWord rest <;> rfl

/-- Behind the digits that it begins with, a number may go on with a fraction. -/
theorem reach_number (hbefore : touchesWord before = false) (hdigits : IsDigits digits)
    (hrest : ∀ c ∈ rest.head?, isDigit c = false) :
    numberPattern.reach ⟨⟨before, digits ++ rest⟩, []⟩ =
      (fractionPattern.reach ⟨⟨digits.reverse ++ before, rest⟩, []⟩ ++
        [(⟨⟨digits.reverse ++ before, rest⟩, []⟩ : Reached)]).flatMap edge.reach := by
  have hedge : edge.reach ⟨⟨before, digits ++ rest⟩, []⟩ = [⟨⟨before, digits ++ rest⟩, []⟩] := by
    simp [reach, Cursor.atEdge, hbefore, hdigits.touchesWord_append]
  have hrun : Run isDigit digits rest := ⟨hdigits.2, hrest⟩
  rw [numberPattern, reach_append, reach_append, reach_append, hedge, List.flatMap_singleton,
    reach_oneOrMore hrun hdigits.1, List.flatMap_singleton]
  rfl

/-- A fraction with no word behind it is one that `back` begins with. -/
theorem beginsFraction_of_mem {s t : Reached}
    (hs : s ∈ fractionPattern.reach ⟨⟨before, back⟩, []⟩) (ht : t ∈ edge.reach s) :
    BeginsFraction back := by
  rw [fractionPattern, reach_append] at hs
  obtain ⟨u, hu, hs⟩ := List.mem_flatMap.mp hs
  cases back with
  | nil => cases hu
  | cons c tail =>
    rw [reach_exactly] at hu
    by_cases hc : c = '.'
    · rw [if_pos hc] at hu
      obtain rfl := List.mem_singleton.mp hu
      obtain ⟨fraction, rest, rfl, hrun⟩ := Text.exists_run isDigit tail
      by_cases hne : fraction = []
      · rw [hne, List.nil_append, reach_oneOrMore_of_stops hrun.stops] at hs
        cases hs
      · rw [reach_oneOrMore hrun hne] at hs
        obtain rfl := List.mem_singleton.mp hs
        have hfraction : IsDigits fraction := ⟨hne, hrun.all⟩
        rw [reach_edge_digits hfraction] at ht
        refine ⟨fraction, rest, by rw [hc], hfraction, ?_⟩
        cases hword : touchesWord rest with
        | false => rfl
        | true => rw [hword] at ht; cases ht
    · rw [if_neg hc] at hu
      cases hu

theorem at?_decimal (hbefore : touchesWord before = false) (hwhole : IsDigits whole)
    (hfraction : IsDigits fraction) (hrest : touchesWord rest = false) :
    numberPattern.at? ⟨before, (whole ++ '.' :: fraction) ++ rest⟩ =
      some (numberMatch before (whole ++ '.' :: fraction) rest) := by
  have hpoint : ∀ c ∈ ('.' :: (fraction ++ rest)).head?, isDigit c = false := by
    rintro c ⟨⟩
    decide
  rw [Pattern.at?, List.append_assoc, List.cons_append, reach_number hbefore hwhole hpoint,
    reach_fraction hfraction (stops_of_touchesWord hrest), List.singleton_append,
    List.flatMap_cons, reach_edge_digits hfraction, hrest]
  simp [numberMatch]

theorem at?_whole (hbefore : touchesWord before = false) (hdigits : IsDigits digits)
    (hback : touchesWord back = false) (hnone : ¬ BeginsFraction back) :
    numberPattern.at? ⟨before, digits ++ back⟩ = some (numberMatch before digits back) := by
  have hfraction : (fractionPattern.reach ⟨⟨digits.reverse ++ before, back⟩, []⟩).flatMap
      edge.reach = [] := by
    refine List.flatMap_eq_nil_iff.mpr ?_
    intro s hs
    refine List.eq_nil_iff_forall_not_mem.mpr ?_
    exact fun t ht => hnone (beginsFraction_of_mem hs ht)
  rw [Pattern.at?, reach_number hbefore hdigits (stops_of_touchesWord hback), List.flatMap_append,
    hfraction, List.flatMap_singleton, reach_edge_digits hdigits, hback]
  rfl

theorem at?_numeral (hbefore : touchesWord before = false) (hback : touchesWord back = false)
    (h : Numeral back digits) :
    numberPattern.at? ⟨before, digits ++ back⟩ = some (numberMatch before digits back) := by
  cases h with
  | whole hdigits hnone => exact at?_whole hbefore hdigits hback hnone
  | decimal hwhole hfraction => exact at?_decimal hbefore hwhole hfraction hback

/-- A number begins with digits, and not inside a word. -/
theorem begins_number {s : Reached} (hrun : Run isDigit digits rest)
    (hs : s ∈ numberPattern.reach ⟨⟨before, digits ++ rest⟩, []⟩) :
    touchesWord before = false ∧ IsDigits digits := by
  rw [numberPattern, reach_append, reach_append, reach_append] at hs
  obtain ⟨t, ht, -⟩ := List.mem_flatMap.mp hs
  obtain ⟨u, hu, -⟩ := List.mem_flatMap.mp ht
  obtain ⟨v, hv, hu⟩ := List.mem_flatMap.mp hu
  simp only [reach] at hv
  by_cases hedge : Cursor.atEdge ⟨before, digits ++ rest⟩ = true
  · rw [if_pos hedge] at hv
    obtain rfl := List.mem_singleton.mp hv
    have hne : digits ≠ [] := by
      rintro rfl
      rw [List.nil_append, reach_oneOrMore_of_stops hrun.stops] at hu
      cases hu
    have hdigits : IsDigits digits := ⟨hne, hrun.all⟩
    refine ⟨?_, hdigits⟩
    simpa [Cursor.atEdge, hdigits.touchesWord_append] using hedge
  · rw [if_neg hedge] at hv
    cases hv

/-- A number is a numeral that touches no word. -/
theorem exists_numeral_of_at? (h : numberPattern.at? ⟨before, after⟩ = some m) :
    touchesWord before = false ∧ ∃ digits back, after = digits ++ back ∧
      touchesWord back = false ∧ Numeral back digits := by
  obtain ⟨s, hs, -⟩ := exists_reach_of_at? h
  obtain ⟨digits, back, rfl, hrun⟩ := Text.exists_run isDigit after
  obtain ⟨hbefore, hdigits⟩ := begins_number hrun hs
  refine ⟨hbefore, ?_⟩
  by_cases hfraction : BeginsFraction back
  · obtain ⟨fraction, rest, rfl, hfraction, hrest⟩ := hfraction
    exact ⟨digits ++ '.' :: fraction, rest, by simp, hrest, .decimal hdigits hfraction⟩
  · refine ⟨digits, back, rfl, ?_, .whole hdigits hfraction⟩
    rw [reach_number hbefore hdigits hrun.stops] at hs
    obtain ⟨t, ht, hs⟩ := List.mem_flatMap.mp hs
    rcases List.mem_append.mp ht with ht | ht
    · exact absurd (beginsFraction_of_mem ht hs) hfraction
    · obtain rfl := List.mem_singleton.mp ht
      rw [reach_edge_digits hdigits] at hs
      cases hword : touchesWord back with
      | false => rfl
      | true => rw [hword] at hs; cases hs

theorem found_number_iff :
    numberPattern.Found line m ↔ ∃ front digits back, line = front ++ (digits ++ back) ∧
      touchesWord front.reverse = false ∧ touchesWord back = false ∧ Numeral back digits ∧
      m = numberMatch front.reverse digits back := by
  constructor
  · intro hfound
    obtain ⟨front, after, rfl, hat⟩ := hfound.exists_cut
    obtain ⟨hfront, digits, back, rfl, hback, hnumeral⟩ := exists_numeral_of_at? hat
    rw [at?_numeral hfront hback hnumeral] at hat
    exact ⟨front, digits, back, rfl, hfront, hback, hnumeral, (Option.some.inj hat).symm⟩
  · rintro ⟨front, digits, back, rfl, hfront, hback, hnumeral, rfl⟩
    exact ⟨at?_numeral hfront hback hnumeral, by simp [numberMatch]⟩

/-! ## Numerals with points between them -/

/-- A numeral with a point behind it is one more. -/
theorem pointed_append (hwhole : IsDigits whole) (hfront : touchesWord front.reverse = false) :
    pointed (front ++ (whole ++ ['.'])).reverse = pointed front.reverse + 1 := by
  have hreverse : (front ++ (whole ++ ['.'])).reverse =
      '.' :: (whole.reverse ++ front.reverse) := by simp
  have hrun := hwhole.reverse.run hfront
  rw [hreverse, pointed, hrun.takeWhile_eq, hrun.dropWhile_eq, if_neg]
  simp [hwhole.1, hfront]

theorem exists_whole_of_pointed (h : pointed front.reverse ≠ 0) :
    ∃ front' whole, front = front' ++ (whole ++ ['.']) ∧ IsDigits whole ∧
      touchesWord front'.reverse = false := by
  rw [pointed.eq_def] at h
  split at h
  · rename_i before hfront
    obtain ⟨digits, rest, rfl, hrun⟩ := Text.exists_run isDigit before
    rw [hrun.takeWhile_eq, hrun.dropWhile_eq] at h
    split at h
    · exact absurd rfl h
    · rename_i hnot
      obtain ⟨hne, hword⟩ := not_or.mp hnot
      have hdigits : IsDigits digits := ⟨hne, hrun.all⟩
      refine ⟨rest.reverse, digits.reverse, ?_, hdigits.reverse, ?_⟩
      · rw [← List.reverse_reverse front, hfront]
        simp
      · rw [List.reverse_reverse]
        exact Bool.not_eq_true _ ▸ hword
  · exact absurd rfl h

/-- The numeral in front of a point is in one place. -/
theorem eq_of_last_numeral {front' whole' : List Char} (hwhole : IsDigits whole)
    (hfront : touchesWord front.reverse = false) (hwhole' : IsDigits whole')
    (hfront' : touchesWord front'.reverse = false)
    (h : front ++ (whole ++ ['.']) = front' ++ (whole' ++ ['.'])) : front = front' := by
  have hreverse := congrArg List.reverse h
  simp only [List.reverse_append, List.reverse_singleton, List.cons_append] at hreverse
  obtain ⟨-, hsame⟩ := (hwhole.reverse.run hfront).unique (hwhole'.reverse.run hfront')
    (List.cons_inj_right '.' |>.mp hreverse)
  exact List.reverse_inj.mp hsame

/-- Within a numeral, only the place behind its point touches no word in front. -/
theorem Numeral.exists_whole {taken : List Char} (h : Numeral back (taken ++ rest))
    (htaken : taken ≠ []) (hword : touchesWord (front ++ taken).reverse = false) :
    ∃ whole, taken = whole ++ ['.'] ∧ IsDigits whole := by
  obtain ⟨first, last, rfl⟩ := (List.eq_nil_or_concat' taken).resolve_left htaken
  have hlast : isDigit last = false := by
    refine stops_of_touchesWord hword last ?_
    simp
  have hmem : last ∈ (first ++ [last]) ++ rest := by simp
  generalize hdigits : (first ++ [last]) ++ rest = digits at h hmem
  cases h with
  | whole hall _ =>
    rw [hall.2 last hmem] at hlast
    cases hlast
  | decimal hwhole hfraction =>
    have hpoint : last = '.' := by
      rcases List.mem_append.mp hmem with hmem | hmem
      · rw [hwhole.2 last hmem] at hlast
        cases hlast
      · rcases List.mem_cons.mp hmem with rfl | hmem
        · rfl
        · rw [hfraction.2 last hmem] at hlast
          cases hlast
    rw [hpoint, List.append_assoc, List.singleton_append] at hdigits
    obtain ⟨rfl, -, -⟩ := (List.append_cons_inj_of_notMem hwhole.point_not_mem
      hfraction.point_not_mem).mp hdigits.symm
    exact ⟨_, by rw [hpoint], hwhole⟩

/-- A number that covers the start of another one is written right in front of it, as the
numeral before the point. -/
theorem front_of_covers_number {front' digits' back' : List Char}
    (hline : front ++ (digits ++ back) = front' ++ (digits' ++ back'))
    (hfront : touchesWord front.reverse = false) (hnumeral' : Numeral back' digits')
    (hcovers : (numberMatch front'.reverse digits' back').Covers
      (numberMatch front.reverse digits back)) :
    ∃ whole, front = front' ++ (whole ++ ['.']) ∧ IsDigits whole := by
  obtain ⟨hstart, hstop⟩ := hcovers
  simp only [offset_numberMatch, length_numberMatch, List.length_reverse] at hstart hstop
  rcases List.append_eq_append_iff.mp hline with ⟨more, rfl, -⟩ | ⟨taken, rfl, htaken⟩
  · rw [List.length_append] at hstart
    omega
  · rw [List.length_append] at hstart hstop
    have hsub : taken <+: digits' :=
      List.prefix_of_prefix_length_le ⟨_, htaken.symm⟩ (List.prefix_append _ _) (by omega)
    obtain ⟨rest, rfl⟩ := hsub
    have hne : taken ≠ [] := by
      rintro rfl
      rw [List.length_nil] at hstart
      omega
    obtain ⟨whole, rfl, hwhole⟩ := hnumeral'.exists_whole hne hfront
    exact ⟨whole, rfl, hwhole⟩

/-- A numeral begins with digits that touch no word behind them. -/
theorem Numeral.exists_digits (h : Numeral back digits) (hback : touchesWord back = false) :
    ∃ whole rest, digits ++ back = whole ++ rest ∧ IsDigits whole ∧ touchesWord rest = false := by
  cases h with
  | whole hdigits _ => exact ⟨_, _, rfl, hdigits, hback⟩
  | decimal hwhole _ =>
    refine ⟨_, _, List.append_assoc .., hwhole, ?_⟩
    show Text.isWordChar '.' = false
    decide

/-- The chain of a number: the numeral in front of it, if there is a point between the two. -/
theorem chain_number (hfound : numberPattern.Found line m) :
    (pointed m.start.before = 0 ∧
      ∀ earlier, numberPattern.Found line earlier → ¬ earlier.Covers m) ∨
    ∃ first, numberPattern.Found line first ∧ first.Covers m ∧
      pointed m.start.before = pointed first.start.before + 1 ∧
      ∀ earlier, numberPattern.Found line earlier → earlier.Covers m → earlier = first := by
  obtain ⟨front, digits, back, hline, hfront, hback, hnumeral, rfl⟩ := found_number_iff.mp hfound
  by_cases hpointed : pointed front.reverse = 0
  · refine Or.inl ⟨hpointed, ?_⟩
    intro earlier hearlier hcovers
    obtain ⟨front', digits', back', hline', hfront', -, hnumeral', rfl⟩ :=
      found_number_iff.mp hearlier
    obtain ⟨whole, rfl, hwhole⟩ :=
      front_of_covers_number (hline.symm.trans hline') hfront hnumeral' hcovers
    rw [pointed_append hwhole hfront'] at hpointed
    exact Nat.succ_ne_zero _ hpointed
  · obtain ⟨front', whole, rfl, hwhole, hfront'⟩ := exists_whole_of_pointed hpointed
    obtain ⟨fraction, rest, hfraction, hdigits, hrest⟩ := hnumeral.exists_digits hback
    -- what stands in front of the point and what begins behind it make one number
    have hfirst : line = front' ++ ((whole ++ '.' :: fraction) ++ rest) := by
      rw [hline, hfraction]
      simp
    have hfound' : numberPattern.Found line
        (numberMatch front'.reverse (whole ++ '.' :: fraction) rest) :=
      found_number_iff.mpr
        ⟨front', _, rest, hfirst, hfront', hrest, .decimal hwhole hdigits, rfl⟩
    refine Or.inr ⟨_, hfound', ?_, pointed_append hwhole hfront', ?_⟩
    · have hpos := List.length_pos_of_ne_nil hdigits.1
      simp only [Match.Covers, offset_numberMatch, length_numberMatch, List.length_reverse,
        List.length_append, List.length_cons, List.length_nil]
      omega
    · intro earlier hearlier hcovers
      obtain ⟨front'', digits'', back'', hline'', hfront'', -, hnumeral'', rfl⟩ :=
        found_number_iff.mp hearlier
      obtain ⟨whole'', hsame, hwhole''⟩ :=
        front_of_covers_number (hline.symm.trans hline'') hfront hnumeral'' hcovers
      obtain rfl := eq_of_last_numeral hwhole hfront' hwhole'' hfront'' hsame
      have hafter := List.append_cancel_left (hline''.symm.trans hfirst)
      refine Option.some.inj ?_
      rw [← hearlier.at_start, ← hfound'.at_start]
      simp only [numberMatch, hafter]

/-- **The numbers of a line** are its numerals without those that are the fraction of another
one. -/
theorem mem_numbers_iff :
    m ∈ numberPattern.allMatches line ↔ ∃ front digits back, line = front ++ (digits ++ back) ∧
      touchesWord front.reverse = false ∧ touchesWord back = false ∧ Numeral back digits ∧
      Even (pointed front.reverse) ∧ m = numberMatch front.reverse digits back := by
  rw [mem_allMatches_iff_even (fun m => pointed m.start.before)
    (fun m => chain_number), found_number_iff]
  constructor
  · rintro ⟨⟨front, digits, back, hline, hfront, hback, hnumeral, rfl⟩, heven⟩
    exact ⟨front, digits, back, hline, hfront, hback, hnumeral, heven, rfl⟩
  · rintro ⟨front, digits, back, hline, hfront, hback, hnumeral, heven, rfl⟩
    exact ⟨⟨front, digits, back, hline, hfront, hback, hnumeral, rfl⟩, heven⟩

/-- Where a number stands and how it is written. -/
theorem exists_mem_numbers_iff {column : Nat} :
    (∃ m ∈ numberPattern.allMatches line, m.offset = column ∧ m.text = digits) ↔
      NumberAt line column digits := by
  constructor
  · rintro ⟨m, hm, rfl, rfl⟩
    obtain ⟨front, digits, back, hline, hfront, hback, hnumeral, heven, rfl⟩ :=
      mem_numbers_iff.mp hm
    rw [text_numberMatch]
    exact ⟨front, back, hline, by simp, hfront, hback, hnumeral, heven⟩
  · rintro ⟨front, back, hline, hcolumn, hfront, hback, hnumeral, heven⟩
    exact ⟨_, mem_numbers_iff.mpr
      ⟨front, digits, back, hline, hfront, hback, hnumeral, heven, rfl⟩,
      by simpa using hcolumn, by simp⟩

end Literal
end LineLint
