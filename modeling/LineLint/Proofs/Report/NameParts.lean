import LineLint.Proofs.Checked.Texts
import LineLint.Proofs.Layout.Lines
import LineLint.Proofs.Pattern.Runs
import Mathlib.Data.List.SplitBy

/-! # Parts of names

A text speaks of loans if one of its names has a loan term for a part.  The names are its runs of
letters, and the parts of a name are cut where a capital follows a small letter.  Both cuts are made
between two neighbours and by what these are, so they can be made at once: the parts of all names are
the pieces of letters that the text falls into where two neighbours do not go on with each other
(`LoanTerms.flatMap_nameParts`).

So whether a stretch of a text is a part of a name is told by its letters and by the two characters
that it stands between (`LoanTerms.IsNamePart`), and no search for names is needed to say which texts
speak of loans (`LoanTerms.mentionedIn_iff`).
-/

namespace LineLint

/-! ## Pieces of lists -/

/-- The pieces that a list falls into are its stretches whose neighbours are related, between two
places where neighbours are not. -/
theorem mem_splitBy_iff {α : Type} {r : α → α → Bool} {l piece : List α} :
    piece ∈ l.splitBy r ↔ piece ≠ [] ∧ piece.IsChain (fun a b => r a b) ∧
      ∃ front back, l = front ++ piece ++ back ∧
        (∀ a ∈ front.getLast?, ∀ b ∈ piece.head?, r a b = false) ∧
        ∀ a ∈ piece.getLast?, ∀ b ∈ back.head?, r a b = false := by
  constructor
  · intro h
    have hborder : ∀ {x y : List α} {hx : x ≠ []} {hy : y ≠ []},
        r (x.getLast hx) (y.head hy) = false → ∀ a ∈ x.getLast?, ∀ b ∈ y.head?, r a b = false := by
      intro x y hx hy hxy a ha b hb
      rwa [← List.getLast_of_mem_getLast? ha, ← List.head_of_mem_head? hb]
    obtain ⟨pieces, pieces', hpieces⟩ := List.append_of_mem h
    have hflatten := List.flatten_splitBy r l
    have hborders := List.isChain_getLast_head_splitBy r l
    have hnil := List.nil_notMem_splitBy r l
    rw [hpieces] at hflatten hborders hnil
    obtain ⟨-, hbehind, hbefore⟩ := List.isChain_append.mp hborders
    refine ⟨List.ne_nil_of_mem_splitBy h, List.isChain_of_mem_splitBy h, pieces.flatten,
      pieces'.flatten, by rw [← hflatten]; simp, ?_, ?_⟩
    · rcases pieces.eq_nil_or_concat with rfl | ⟨pieces, last, rfl⟩
      · nofun
      · obtain ⟨hlast, hhead, hfalse⟩ := hbefore last (by simp) piece rfl
        rw [List.concat_eq_append, List.flatten_append, List.flatten_singleton,
          List.getLast?_append_of_ne_nil _ hlast]
        exact hborder hfalse
    · cases pieces' with
      | nil => exact fun a _ => nofun
      | cons next pieces' =>
        obtain ⟨hlast, hhead, hfalse⟩ := (List.isChain_cons_cons.mp hbehind).1
        rw [List.flatten_cons, List.head?_append_of_ne_nil _ hhead]
        exact hborder hfalse
  · rintro ⟨hne, hchain, front, back, rfl, hfront, hback⟩
    have hcut : ∀ a ∈ (front ++ piece).getLast?, ∀ b ∈ back.head?, r a b = false := by
      rwa [List.getLast?_append_of_ne_nil _ hne]
    rw [List.splitBy_append hcut, List.splitBy_append hfront, List.splitBy_of_isChain hne hchain]
    simp

/-- A first element that is related to the second one belongs to the first piece. -/
theorem splitBy_cons_cons {α : Type} {r : α → α → Bool} {a b : α} (h : r a b = true)
    (l : List α) : (a :: b :: l).splitBy r = ((b :: l).splitBy r).modifyHead (a :: ·) := by
  obtain ⟨hflatten, hnil, hchains, hborders⟩ :=
    List.splitBy_eq_iff.mp (rfl : (b :: l).splitBy r = (b :: l).splitBy r)
  cases hpieces : (b :: l).splitBy r with
  | nil => cases List.splitBy_eq_nil.mp hpieces
  | cons piece pieces =>
    rw [hpieces] at hflatten hnil hchains hborders
    cases piece with
    | nil => exact absurd List.mem_cons_self hnil
    | cons b' piece =>
      obtain ⟨rfl, -⟩ := List.cons_eq_cons.mp hflatten
      obtain ⟨hnext, hpiecesBorders⟩ := List.isChain_cons.mp hborders
      refine List.splitBy_eq_iff.mpr ⟨congrArg (a :: ·) hflatten, ?_, ?_, ?_⟩
      · simpa using hnil
      · obtain ⟨hpiece, hchains⟩ := List.forall_mem_cons.mp hchains
        exact List.forall_mem_cons.mpr ⟨List.isChain_cons_cons.mpr ⟨h, hpiece⟩, hchains⟩
      · refine List.isChain_cons.mpr ⟨fun next hmem => ?_, hpiecesBorders⟩
        obtain ⟨hne, hhead, hfalse⟩ := hnext next hmem
        exact ⟨List.cons_ne_nil _ _, hhead, by rwa [List.getLast_cons hne]⟩

namespace LoanTerms

/-! ## Parts of all names -/

/-- Whether two letters that stand side by side belong to one part of a name. -/
def goesOn (c d : Char) : Bool :=
  c.isAlpha && d.isAlpha && !(c.isLower && d.isUpper)

theorem goesOn_of_notAlpha_left {c : Char} (hc : c.isAlpha = false) (d : Char) :
    goesOn c d = false := by
  rw [goesOn, hc]
  rfl

theorem goesOn_of_notAlpha_right (c : Char) {d : Char} (hd : d.isAlpha = false) :
    goesOn c d = false := by
  rw [goesOn, hd, Bool.and_false]
  rfl

/-- The parts of a name are the pieces that it falls into. -/
theorem nameParts_eq_splitBy {word : List Char} (h : ∀ c ∈ word, c.isAlpha = true) :
    nameParts word = word.splitBy goesOn := by
  induction word with
  | nil => rfl
  | cons c word ih =>
    cases word with
    | nil => rfl
    | cons d word =>
      have hrest : nameParts (d :: word) = (d :: word).splitBy goesOn :=
        ih fun x hx => h x (List.mem_cons_of_mem c hx)
      have hgoes : goesOn c d = !(c.isLower && d.isUpper) := by
        rw [goesOn, h c List.mem_cons_self, h d (by simp)]
        rfl
      by_cases hstarts : (c.isLower && d.isUpper) = true
      · have hcut : goesOn c d = false := by rw [hgoes, hstarts]; rfl
        have happend := List.splitBy_append (l := [c]) (m := d :: word) (r := goesOn)
          (by simpa using hcut)
        rw [Checked.nameParts_of_starts hstarts, hrest]
        exact happend.symm
      · have hjoin : goesOn c d = true := by rw [hgoes, (Bool.not_eq_true _).mp hstarts]; rfl
        rw [Checked.nameParts_of_goes_on hstarts, hrest, splitBy_cons_cons hjoin]

theorem letterRunsFrom_of_all {word : List Char} (h : ∀ c ∈ word, c.isAlpha = true)
    (run : List Char) :
    letterRunsFrom run word =
      if (run.reverse ++ word).isEmpty then [] else [run.reverse ++ word] := by
  induction word generalizing run with
  | nil =>
    rw [letterRunsFrom, List.append_nil, List.isEmpty_reverse]
  | cons c word ih =>
    obtain ⟨hc, hword⟩ := List.forall_mem_cons.mp h
    rw [letterRunsFrom, if_pos hc, ih hword, List.reverse_cons, List.append_assoc]
    rfl

/-- The parts of the names in a text of letters. -/
theorem flatMap_letterRuns_of_all {word : List Char} (h : ∀ c ∈ word, c.isAlpha = true) :
    (letterRuns word).flatMap nameParts = word.splitBy goesOn := by
  rw [letterRuns, letterRunsFrom_of_all h, ← nameParts_eq_splitBy h]
  cases word with
  | nil => rfl
  | cons c word => exact List.flatMap_singleton _ _

theorem filter_splitBy_of_all {word : List Char} (h : ∀ c ∈ word, c.isAlpha = true) :
    (word.splitBy goesOn).filter (·.all Char.isAlpha) = word.splitBy goesOn := by
  refine List.filter_eq_self.mpr fun part hpart => List.all_eq_true.mpr fun c hc => h c ?_
  rw [← List.flatten_splitBy goesOn word]
  exact List.mem_flatten.mpr ⟨part, hpart, hc⟩

/-- **The parts of all names** are the pieces of letters that the text falls into. -/
theorem flatMap_nameParts (text : List Char) :
    (letterRuns text).flatMap nameParts =
      (text.splitBy goesOn).filter (·.all Char.isAlpha) := by
  obtain ⟨word, rest, rfl, hrun⟩ := Text.exists_run Char.isAlpha text
  cases rest with
  | nil =>
    rw [List.append_nil, flatMap_letterRuns_of_all hrun.all, filter_splitBy_of_all hrun.all]
  | cons c rest =>
    -- the text is cut on either side of the character behind the word
    have hc : c.isAlpha = false := hrun.stops c rfl
    have hleft : (word ++ c :: rest).splitBy goesOn =
        word.splitBy goesOn ++ (c :: rest).splitBy goesOn :=
      List.splitBy_append_cons rest fun b _ => goesOn_of_notAlpha_right b hc
    have hright : (c :: rest).splitBy goesOn = [c] :: rest.splitBy goesOn :=
      List.splitBy_append (l := [c]) (m := rest) fun b hb d _ => by
        obtain rfl : c = b := by simpa using hb
        exact goesOn_of_notAlpha_left hc d
    rw [letterRuns, letterRunsFrom_append_cons hc, ← letterRuns, List.flatMap_append,
      flatMap_letterRuns_of_all hrun.all, flatMap_nameParts rest, hleft, hright,
      List.filter_append, filter_splitBy_of_all hrun.all,
      List.filter_cons_of_neg (by simp [hc])]
  termination_by text.length

/-! ## Where parts of names stand -/

/-- Whether a stretch of letters is a part of a name where it stands: no capital in it follows a
small letter, and on either side the text ends there, or a character follows that is no letter, or
a capital stands behind a small letter. -/
structure IsNamePart (front part back : List Char) : Prop where
  /-- The stretch holds letters only. -/
  letters : ∀ c ∈ part, c.isAlpha = true
  /-- No part starts inside. -/
  joined : part.IsChain fun c d => ¬ (c.isLower = true ∧ d.isUpper = true)
  /-- A part starts with the stretch. -/
  starts : ∀ c ∈ front.getLast?,
    c.isAlpha = false ∨ c.isLower = true ∧ ∃ d ∈ part.head?, d.isUpper = true
  /-- A part ends with the stretch. -/
  ends : ∀ d ∈ back.head?,
    d.isAlpha = false ∨ d.isUpper = true ∧ ∃ c ∈ part.getLast?, c.isLower = true

/-- Letters do not go on with each other exactly if a capital follows a small letter. -/
theorem goesOn_eq_false_iff {c d : Char} :
    goesOn c d = false ↔
      c.isAlpha = false ∨ d.isAlpha = false ∨ c.isLower = true ∧ d.isUpper = true := by
  simp only [goesOn, Bool.and_eq_false_iff, Bool.not_eq_false', Bool.and_eq_true, or_assoc]

theorem isNamePart_iff {front part back : List Char} (hne : part ≠ []) :
    IsNamePart front part back ↔ (∀ c ∈ part, c.isAlpha = true) ∧
      part.IsChain (fun c d => goesOn c d = true) ∧
      (∀ c ∈ front.getLast?, ∀ d ∈ part.head?, goesOn c d = false) ∧
      ∀ c ∈ part.getLast?, ∀ d ∈ back.head?, goesOn c d = false := by
  have hgoes : (∀ c ∈ part, c.isAlpha = true) →
      (part.IsChain (fun c d => ¬ (c.isLower = true ∧ d.isUpper = true)) ↔
        part.IsChain fun c d => goesOn c d = true) := by
    intro hletters
    refine List.IsChain.iff_of_mem_imp fun c d hc hd => ?_
    rw [← Bool.not_eq_false (goesOn c d), goesOn_eq_false_iff, hletters c hc, hletters d hd]
    simp
  have hstarts : (∀ c ∈ part, c.isAlpha = true) →
      ((∀ c ∈ front.getLast?,
          c.isAlpha = false ∨ c.isLower = true ∧ ∃ d ∈ part.head?, d.isUpper = true) ↔
        ∀ c ∈ front.getLast?, ∀ d ∈ part.head?, goesOn c d = false) := by
    intro hletters
    refine forall₂_congr fun c _ => ?_
    obtain ⟨d, rest, rfl⟩ := List.exists_cons_of_ne_nil hne
    simp [goesOn_eq_false_iff, hletters d List.mem_cons_self]
  have hends : (∀ c ∈ part, c.isAlpha = true) →
      ((∀ d ∈ back.head?,
          d.isAlpha = false ∨ d.isUpper = true ∧ ∃ c ∈ part.getLast?, c.isLower = true) ↔
        ∀ c ∈ part.getLast?, ∀ d ∈ back.head?, goesOn c d = false) := by
    intro hletters
    rw [forall₂_comm]
    refine forall₂_congr fun d _ => ?_
    rw [List.getLast?_eq_some_getLast hne]
    simp [goesOn_eq_false_iff, hletters _ (List.getLast_mem hne), and_comm]
  constructor
  · intro h
    exact ⟨h.letters, (hgoes h.letters).mp h.joined, (hstarts h.letters).mp h.starts,
      (hends h.letters).mp h.ends⟩
  · rintro ⟨hletters, hjoined, hfront, hback⟩
    exact ⟨hletters, (hgoes hletters).mpr hjoined, (hstarts hletters).mpr hfront,
      (hends hletters).mpr hback⟩

/-- **What the parts of the names in a text are.** -/
theorem mem_flatMap_nameParts_iff {text part : List Char} :
    part ∈ (letterRuns text).flatMap nameParts ↔
      part ≠ [] ∧ ∃ front back, text = front ++ part ++ back ∧ IsNamePart front part back := by
  rw [flatMap_nameParts, List.mem_filter, mem_splitBy_iff, List.all_eq_true]
  constructor
  · rintro ⟨⟨hne, hchain, front, back, htext, hfront, hback⟩, hletters⟩
    exact ⟨hne, front, back, htext,
      (isNamePart_iff hne).mpr ⟨hletters, hchain, hfront, hback⟩⟩
  · rintro ⟨hne, front, back, htext, hpart⟩
    obtain ⟨hletters, hchain, hfront, hback⟩ := (isNamePart_iff hne).mp hpart
    exact ⟨⟨hne, hchain, front, back, htext, hfront, hback⟩, hletters⟩

/-- A loan term is one of three words in any case. -/
theorem isTerm_iff {part : List Char} :
    isTerm part = true ↔ Text.asciiLower part = "principal".toList ∨
      Text.asciiLower part = "rate".toList ∨ Text.asciiLower part = "term".toList := by
  have hsmall : ∀ term ∈ terms, Text.asciiLower term.toList = term.toList := by decide
  have hsame : ∀ term ∈ terms, (Text.sameIgnoringCase term.toList part = true ↔
      Text.asciiLower part = term.toList) := fun term hterm => by
    rw [Text.sameIgnoringCase_iff, hsmall term hterm, eq_comm]
  simp only [terms, List.forall_mem_cons] at hsame
  rw [isTerm, terms, List.any_cons, List.any_cons, List.any_cons, List.any_nil, Bool.or_false,
    Bool.or_eq_true_iff, Bool.or_eq_true_iff, hsame.1, hsame.2.1, hsame.2.2.1]

/-- **Which texts speak of loans.**  A text does exactly if a stretch of it is one of the three loan
terms in some case and a part of a name where it stands.  And the parts of a name, none of which is
empty, make up the name. -/
theorem mentionedIn_iff (text : List Char) :
    (mentionedIn text = true ↔ ∃ front part back, text = front ++ part ++ back ∧
      (Text.asciiLower part = "principal".toList ∨ Text.asciiLower part = "rate".toList ∨
        Text.asciiLower part = "term".toList) ∧ IsNamePart front part back) ∧
    ∀ word ∈ letterRuns text, (nameParts word).flatten = word ∧ [] ∉ nameParts word := by
  constructor
  · rw [mentionedIn, ← List.any_flatMap, List.any_eq_true]
    constructor
    · rintro ⟨part, hpart, hterm⟩
      obtain ⟨-, front, back, htext, hname⟩ := mem_flatMap_nameParts_iff.mp hpart
      exact ⟨front, part, back, htext, isTerm_iff.mp hterm, hname⟩
    · rintro ⟨front, part, back, htext, hterm, hname⟩
      have hne : part ≠ [] := by
        rintro rfl
        revert hterm
        decide
      exact ⟨part, mem_flatMap_nameParts_iff.mpr ⟨hne, front, back, htext, hname⟩,
        isTerm_iff.mpr hterm⟩
  · intro word hword
    refine ⟨flatten_nameParts word, fun hnil => ?_⟩
    exact (mem_flatMap_nameParts_iff.mp (List.mem_flatMap.mpr ⟨word, hword, hnil⟩)).1 rfl

/-- Parts of names in an acronym, behind a capital and inside of a longer word. -/
example : ["ANNUAL_RATE", "loanPrincipal2", "TermMonths", "iterate", "RATEs", "HTTPRate"].map
    (fun text => mentionedIn text.toList) = [true, true, true, false, false, false] := by
  decide

end LoanTerms
end LineLint
