import LineLint.Proofs.Checked.Texts
import LineLint.Proofs.LetterCase.Letters
import LineLint.Proofs.Pattern.Runs
import LineLint.Text.Search
import Mathlib.Data.List.Basic

/-! # Runs of name characters

A text is cut at all characters that no name has, and what is left between them are its runs of
name characters (`Text.nameRuns`).  A run is told by where it stands: it cannot be made longer on
either side (`Text.mem_nameRuns_iff`).

Words are counted by looking for a substring, from left to right and without overlap, and by
looking at the characters on either side of it.  An occurrence that is refused could hide a later
one that overlaps with it.  It does not, since the later one begins inside a run and is refused
as well: the words that are counted are the runs that are equal to the word
(`Text.countWord_eq_count`).
-/
namespace LineLint
namespace Text

variable {text word front run back rest : List Char} {c : Char}

/-- What a text falls into where it is cut at all characters that no name has. -/
def namePieces (text : List Char) : List (List Char) :=
  text.splitOnP fun c => !isNameChar c

/-- The maximal runs of name characters in a text, in their order. -/
def nameRuns (text : List Char) : List (List Char) :=
  (namePieces text).filter fun piece => !piece.isEmpty

/-- Whether a stretch of a text is a maximal run of name characters. -/
structure IsNameRun (front run back : List Char) : Prop where
  ne_nil : run ≠ []
  /-- It holds name characters only. -/
  names : ∀ c ∈ run, isNameChar c = true
  /-- It does not go on in front. -/
  starts : ∀ c ∈ front.getLast?, isNameChar c = false
  /-- It does not go on behind. -/
  ends : ∀ c ∈ back.head?, isNameChar c = false

/-- Whether a maximal run of name characters stands in a text. -/
def HoldsNameRun (text run : List Char) : Prop :=
  ∃ front back, text = front ++ run ++ back ∧ IsNameRun front run back

/-! ## Pieces -/

/-- A text is cut behind the run that it begins with. -/
theorem namePieces_append_cons (h : ∀ c ∈ run, isNameChar c = true) (hc : isNameChar c = false)
    (rest : List Char) : namePieces (run ++ c :: rest) = run :: namePieces rest :=
  List.splitOnP_append_cons_of_forall_mem (fun d hd => by simp [h d hd]) c (by simp [hc]) rest

theorem namePieces_cons_of_other (hc : isNameChar c = false) (rest : List Char) :
    namePieces (c :: rest) = [] :: namePieces rest :=
  namePieces_append_cons (List.forall_mem_nil _) hc rest

theorem namePieces_of_all (h : ∀ c ∈ text, isNameChar c = true) : namePieces text = [text] :=
  List.splitOnP_eq_singleton fun c hc => by simp [h c hc]

/-- The first piece is the run that the text begins with. -/
theorem namePieces_eq (text : List Char) :
    namePieces text = text.takeWhile isNameChar :: (namePieces text).tail := by
  obtain ⟨run, rest, rfl, hrun⟩ := exists_run isNameChar text
  rw [hrun.takeWhile_eq]
  cases rest with
  | nil => rw [List.append_nil, namePieces_of_all hrun.all, List.tail_cons]
  | cons c rest => rw [namePieces_append_cons hrun.all (hrun.stops c rfl), List.tail_cons]

/-- A name character belongs to the first piece. -/
theorem tail_namePieces_cons (hc : isNameChar c = true) (rest : List Char) :
    (namePieces (c :: rest)).tail = (namePieces rest).tail := by
  have hcons : namePieces (c :: rest) = (namePieces rest).modifyHead (c :: ·) := by
    rw [namePieces, List.splitOnP_cons_eq_if_modifyHead, hc]
    rfl
  rw [hcons, namePieces_eq rest, List.modifyHead_cons, List.tail_cons, List.tail_cons]

/-! ## Where runs stand -/

theorem IsNameRun.front_eq_nil (h : IsNameRun front run back)
    (hfront : ∀ c ∈ front, isNameChar c = true) : front = [] := by
  rcases front.eq_nil_or_concat with rfl | ⟨front, c, rfl⟩
  · rfl
  · have hother := h.starts c (by simp)
    rw [hfront c (by simp)] at hother
    cases hother

/-- No run begins with a character that no name has. -/
theorem IsNameRun.front_ne_nil (h : IsNameRun front run back)
    (htext : ∀ c ∈ (front ++ run ++ back).head?, isNameChar c = false) : front ≠ [] := by
  rintro rfl
  obtain ⟨c, run, rfl⟩ := List.exists_cons_of_ne_nil h.ne_nil
  have hother := htext c rfl
  rw [h.names c List.mem_cons_self] at hother
  cases hother

/-- A run stands at the start of a text, or in what stands behind its first run. -/
theorem holdsNameRun_append_iff (hword : Run isNameChar word rest) :
    HoldsNameRun (word ++ rest) run ↔ (run ≠ [] ∧ run = word) ∨ HoldsNameRun rest run := by
  constructor
  · rintro ⟨front, back, htext, hrun⟩
    rw [List.append_assoc] at htext
    rcases List.append_eq_append_iff.mp htext with ⟨more, rfl, rfl⟩ | ⟨more, rfl, -⟩
    · refine Or.inr ⟨more, back, (List.append_assoc ..).symm, hrun.ne_nil, hrun.names, ?_,
        hrun.ends⟩
      intro c hc
      exact hrun.starts c (by rw [List.getLast?_append, hc]; rfl)
    · obtain rfl := hrun.front_eq_nil fun c hc => hword.all c (List.mem_append_left _ hc)
      obtain ⟨rfl, -⟩ := hword.unique ⟨hrun.names, hrun.ends⟩ htext
      exact Or.inl ⟨hrun.ne_nil, rfl⟩
  · rintro (⟨hne, rfl⟩ | ⟨front, back, rfl, hrun⟩)
    · exact ⟨[], rest, rfl, hne, hword.all, fun _ => nofun, hword.stops⟩
    · have hfront := hrun.front_ne_nil hword.stops
      refine ⟨word ++ front, back, by simp, hrun.ne_nil, hrun.names, ?_, hrun.ends⟩
      rw [List.getLast?_append_of_ne_nil _ hfront]
      exact hrun.starts

/-- A character that no name has is no part of a run. -/
theorem holdsNameRun_cons_iff (hc : isNameChar c = false) :
    HoldsNameRun (c :: rest) run ↔ HoldsNameRun rest run := by
  constructor
  · rintro ⟨front, back, htext, hrun⟩
    have hfront := hrun.front_ne_nil (by rw [← htext]; simpa using hc)
    obtain ⟨d, front, rfl⟩ := List.exists_cons_of_ne_nil hfront
    obtain ⟨rfl, rfl⟩ := List.cons_eq_cons.mp htext
    refine ⟨front, back, rfl, hrun.ne_nil, hrun.names, ?_, hrun.ends⟩
    intro d hd
    exact hrun.starts d (by rw [List.getLast?_cons, Option.mem_def.mp hd]; rfl)
  · rintro ⟨front, back, rfl, hrun⟩
    refine ⟨c :: front, back, rfl, hrun.ne_nil, hrun.names, ?_, hrun.ends⟩
    cases front with
    | nil => simpa using hc
    | cons d front =>
      rw [List.getLast?_cons_cons]
      exact hrun.starts

/-- **What the runs of a text are.** -/
theorem mem_nameRuns_iff (text run : List Char) : run ∈ nameRuns text ↔ HoldsNameRun text run := by
  have hmem : ∀ text, run ∈ nameRuns text ↔ run ≠ [] ∧ run ∈ namePieces text := by
    intro text
    simp [nameRuns, and_comm]
  obtain ⟨word, rest, rfl, hword⟩ := exists_run isNameChar text
  rw [holdsNameRun_append_iff hword]
  cases rest with
  | nil =>
    have hnone : ¬ HoldsNameRun [] run := by
      rintro ⟨front, back, htext, hrun⟩
      obtain ⟨hfront, -⟩ := List.append_eq_nil_iff.mp htext.symm
      exact hrun.ne_nil (List.append_eq_nil_iff.mp hfront).2
    rw [List.append_nil, hmem, namePieces_of_all hword.all, List.mem_singleton, or_iff_left hnone]
  | cons c rest =>
    have hc : isNameChar c = false := hword.stops c rfl
    rw [holdsNameRun_cons_iff hc, ← mem_nameRuns_iff rest, hmem, hmem,
      namePieces_append_cons hword.all hc, List.mem_cons, and_or_left]
  termination_by text.length

/-! ## Counting words -/

/-- The pieces that a text adds to what stands in front of it: all of them, without the first one if
a name goes on in it. -/
def piecesAhead (inName : Bool) (text : List Char) : List (List Char) :=
  if inName then (namePieces text).tail else namePieces text

/-- A word is the run that a text begins with if it stands there and no name goes on behind it. -/
theorem takeWhile_eq_iff (hword : ∀ c ∈ word, isNameChar c = true) :
    text.takeWhile isNameChar = word ↔
      word <+: text ∧ startsInName (text.drop word.length) = false := by
  constructor
  · rintro rfl
    obtain ⟨run, rest, rfl, hrun⟩ := exists_run isNameChar text
    rw [hrun.takeWhile_eq, List.drop_left]
    refine ⟨List.prefix_append run rest, ?_⟩
    cases rest with
    | nil => rfl
    | cons c rest => exact hrun.stops c rfl
  · rintro ⟨⟨rest, rfl⟩, hends⟩
    rw [List.drop_left] at hends
    refine Run.takeWhile_eq ⟨hword, fun c hc => ?_⟩
    obtain ⟨rest, rfl⟩ := List.head?_eq_some_iff.mp hc
    exact hends

/-- The empty piece in front of a character that no name has is no word. -/
theorem count_piecesAhead_of_other (hne : word ≠ []) (hc : isNameChar c = false) (inName : Bool)
    (rest : List Char) :
    (piecesAhead inName (c :: rest)).count word = (piecesAhead false rest).count word := by
  rw [piecesAhead, namePieces_cons_of_other hc]
  cases inName with
  | true => rfl
  | false => exact List.count_cons_of_ne hne.symm

/-- A name that does not begin with the word is not the word. -/
theorem count_piecesAhead_of_not_begins (hword : ∀ c ∈ word, isNameChar c = true)
    (hc : isNameChar c = true) (hbegins : ¬ word <+: c :: rest) (inName : Bool) :
    (piecesAhead inName (c :: rest)).count word = (piecesAhead true rest).count word := by
  cases inName with
  | true => exact congrArg (List.count word) (tail_namePieces_cons hc rest)
  | false =>
    have hother : (c :: rest).takeWhile isNameChar ≠ word :=
      fun h => hbegins ((takeWhile_eq_iff hword).mp h).1
    rw [piecesAhead, if_neg Bool.false_ne_true, namePieces_eq, List.count_cons_of_ne hother,
      tail_namePieces_cons hc]
    rfl

/-- A name that begins with the word is the word if it neither began in front nor goes on. -/
theorem count_piecesAhead_of_begins (hword : ∀ c ∈ word, isNameChar c = true)
    (hc : isNameChar c = true) (hbegins : word <+: c :: rest) (inName : Bool) :
    (piecesAhead inName (c :: rest)).count word =
      (if inName || startsInName ((c :: rest).drop word.length) then 0 else 1) +
        (piecesAhead true rest).count word := by
  have hfirst : (c :: rest).takeWhile isNameChar = word ↔
      startsInName ((c :: rest).drop word.length) = false :=
    (takeWhile_eq_iff hword).trans (and_iff_right hbegins)
  have hlater := tail_namePieces_cons hc rest
  cases inName with
  | true => exact (congrArg (List.count word) hlater).trans (Nat.zero_add _).symm
  | false =>
    rw [piecesAhead, if_neg Bool.false_ne_true, namePieces_eq, hlater, Bool.false_or]
    cases hends : startsInName ((c :: rest).drop word.length) with
    | true =>
      rw [List.count_cons_of_ne (mt hfirst.mp (by simp [hends]))]
      exact (Nat.zero_add _).symm
    | false =>
      rw [hfirst.mpr hends, List.count_cons_self]
      exact Nat.add_comm _ 1

theorem countWordFrom_of_not_begins (hbegins : ¬ word <+: c :: rest) (inName : Bool) :
    countWordFrom word inName 0 (c :: rest) = countWordFrom word (isNameChar c) 0 rest :=
  if_neg (mt List.isPrefixOf_iff_prefix.mp hbegins)

theorem countWordFrom_of_begins (hbegins : word <+: c :: rest) (inName : Bool) :
    countWordFrom word inName 0 (c :: rest) =
      (if inName || startsInName ((c :: rest).drop word.length) then 0 else 1) +
        countWordFrom word (isNameChar c) (word.length - 1) rest :=
  if_pos (List.isPrefixOf_iff_prefix.mpr hbegins)

/-- Behind the first character of an occurrence, names go on to its end. -/
theorem names_of_begins (hne : word ≠ []) (hword : ∀ c ∈ word, isNameChar c = true)
    (hbegins : word <+: c :: rest) :
    isNameChar c = true ∧ ∀ d ∈ rest.take (word.length - 1), isNameChar d = true := by
  obtain ⟨d, more, rfl⟩ := List.exists_cons_of_ne_nil hne
  obtain ⟨rfl, hmore⟩ := List.cons_prefix_cons.mp hbegins
  rw [List.length_cons, Nat.add_sub_cancel, ← List.prefix_iff_eq_take.mp hmore]
  exact List.forall_mem_cons.mp hword

/-- **What is counted from a place on.**  While an occurrence is being passed, the name goes on in
which it began, so no run begins there. -/
theorem countWordFrom_eq_count (hne : word ≠ []) (hword : ∀ c ∈ word, isNameChar c = true)
    {inName : Bool} {skip : Nat} {text : List Char} (hskip : 0 < skip → inName = true)
    (hpassed : ∀ c ∈ text.take skip, isNameChar c = true) :
    countWordFrom word inName skip text = (piecesAhead inName text).count word := by
  induction text generalizing inName skip with
  | nil =>
    have hempty : word.isEmpty = false := by simpa using hne
    have hpieces : namePieces [] = [[]] := rfl
    rw [countWordFrom, hempty, Bool.and_false, Bool.false_and, if_neg Bool.false_ne_true, piecesAhead,
      hpieces]
    cases inName with
    | true => rfl
    | false => rw [if_neg Bool.false_ne_true, List.count_cons_of_ne hne.symm, List.count_nil]
  | cons c rest ih =>
    cases skip with
    | succ skip =>
      obtain ⟨hc, hpassed⟩ := List.forall_mem_cons.mp hpassed
      rw [countWordFrom, hskip (Nat.succ_pos skip), hc, ih (fun _ => rfl) hpassed]
      exact congrArg (List.count word) (tail_namePieces_cons hc rest).symm
    | zero =>
      by_cases hbegins : word <+: c :: rest
      · obtain ⟨hc, htake⟩ := names_of_begins hne hword hbegins
        rw [countWordFrom_of_begins hbegins, hc, ih (fun _ => rfl) htake,
          count_piecesAhead_of_begins hword hc hbegins]
      · rw [countWordFrom_of_not_begins hbegins,
          ih (fun hpos => absurd hpos (Nat.lt_irrefl 0)) (List.forall_mem_nil _)]
        cases hc : isNameChar c with
        | true => exact (count_piecesAhead_of_not_begins hword hc hbegins inName).symm
        | false => exact (count_piecesAhead_of_other hne hc inName rest).symm

theorem caseBlind_isNameChar : CaseBlind isNameChar :=
  caseBlind_of_capitals (by decide)

/-- A text of name characters becomes small letter by letter. -/
theorem lower_eq_asciiLower (h : ∀ c ∈ text, isNameChar c = true) :
    lower text = asciiLower text := by
  suffices hbehind : ∀ before, lowerBehind before text = asciiLower text from hbehind []
  induction text with
  | nil => exact fun _ => rfl
  | cons c text ih =>
    intro before
    obtain ⟨hc, htext⟩ := List.forall_mem_cons.mp h
    have hascii := Checked.lt_of_isNameChar hc
    have hsigma : c ≠ 'Σ' := by
      rintro rfl
      exact absurd hascii (by decide)
    rw [lowerBehind, if_neg hsigma, lowerChar, if_pos hascii, ih htext]
    rfl

/-- **Whole words are maximal runs.**  What is counted of a word on a line are the maximal runs of name
characters in the small form of the line that are equal to the small form of the word. -/
theorem countWord_eq_count (line : List Char) (hne : word ≠ [])
    (hword : ∀ c ∈ word, isNameChar c = true) :
    countWord line word = (nameRuns (lower line)).count (lower word) ∧
      ∀ run, run ∈ nameRuns (lower line) ↔ HoldsNameRun (lower line) run := by
  refine ⟨?_, mem_nameRuns_iff (lower line)⟩
  rw [countWord, lower_eq_asciiLower hword]
  have hne' : asciiLower word ≠ [] := mt List.map_eq_nil_iff.mp hne
  have hword' : ∀ c ∈ asciiLower word, isNameChar c = true := by
    intro c hc
    obtain ⟨d, hd, rfl⟩ := List.mem_map.mp hc
    rw [caseBlind_isNameChar, hword d hd]
  rw [countWordFrom_eq_count hne' hword' (fun hpos => absurd hpos (Nat.lt_irrefl 0))
    (List.forall_mem_nil _), nameRuns, List.count_filter (by simpa using hne), piecesAhead,
    if_neg Bool.false_ne_true]

/-- The Kelvin sign becomes a small `k`, and `İ` becomes an `i` and a mark, at which a name ends.  So
`K` stands on this line as a word four times, and inside of three longer names. -/
theorem countWord_eq_count_of_kelvin_sign :
    let line := "K(kk, _k) k.Ki; \u212A + İk".toList
    let word := ['K']
    word ≠ [] ∧ (∀ c ∈ word, isNameChar c = true) ∧ countWord line word = 4 := by
  intro line word
  have hne : word ≠ [] := List.cons_ne_nil _ _
  have hword : ∀ c ∈ word, isNameChar c = true := List.forall_mem_singleton.mpr rfl
  refine ⟨hne, hword, (countWord_eq_count line hne hword).1.trans ?_⟩
  decide +kernel

end Text
end LineLint
