import LineLint.Code.Comment
import LineLint.Text.Digit
import LineLint.Text.Search
import LineLint.Text.Space

/-! # White space in front of a line

There are twenty-five white-space characters, so what holds of all of them is a
finite check (`of_isSpace`): they belong to no word, they have no case, and no
keyword starts with one.

A function of lines is `IndentBlind` if a white-space character in front of the
line does not change its result; then no amount of it does
(`IndentBlind.trimStart`).  The case mappings and the functions that cut a line
leave such a character where it is.
-/
namespace LineLint
namespace Text

/-- The white-space characters. -/
def spaceChars : List Char :=
  spaceRanges.flatMap fun range =>
    (List.range' range.1 (range.2 + 1 - range.1)).map Char.ofNat

theorem mem_spaceChars {c : Char} (h : isSpace c = true) : c ∈ spaceChars := by
  obtain ⟨range, hrange, hlow, hhigh⟩ := (inRanges_iff spaceRanges c).mp h
  refine List.mem_flatMap.mpr ⟨range, hrange, List.mem_map.mpr ⟨c.toNat, ?_, Char.ofNat_toNat c⟩⟩
  exact List.mem_range'_1.mpr ⟨hlow, by omega⟩

/-- What holds of the twenty-five holds of all white space. -/
theorem of_isSpace {p : Char → Bool} (h : spaceChars.all p = true) {c : Char}
    (hc : isSpace c = true) : p c = true :=
  List.all_eq_true.mp h c (mem_spaceChars hc)

/-- Whether a class of characters holds no white space. -/
def solid (accepts : Char → Bool) : Bool :=
  spaceChars.all fun c => !accepts c

theorem eq_false_of_solid {accepts : Char → Bool} (h : solid accepts = true) {c : Char}
    (hc : isSpace c = true) : accepts c = false :=
  Bool.not_eq_true' _ ▸ of_isSpace h hc

theorem not_isSpace_of_solid {accepts : Char → Bool} (h : solid accepts = true) {c : Char}
    (hc : accepts c = true) : isSpace c = false := by
  cases hspace : isSpace c with
  | false => rfl
  | true =>
    rw [eq_false_of_solid h hspace] at hc
    cases hc

theorem ne_of_isSpace {c d : Char} (hc : isSpace c = true) (hd : isSpace d = false) : c ≠ d := by
  rintro rfl
  rw [hc] at hd
  cases hd

/-- Whether a character is no part of words and has no case. -/
structure Plain (c : Char) : Prop where
  word : isWordChar c = false
  name : isNameChar c = false
  alpha : c.isAlpha = false
  cased : isCased c = false
  ignorable : isCaseIgnorable c = false
  lower : lowerChar c = [c]
  upper : upperChar c = [c]

theorem plain_of_isSpace {c : Char} (hc : isSpace c = true) : Plain c := by
  -- classes and forms are checked apart: one computation for both would recurse too deeply
  have hsolid : solid (fun c => isWordChar c || isNameChar c || c.isAlpha || isCased c ||
      isCaseIgnorable c) = true := by decide +kernel
  have hforms : spaceChars.all (fun c => lowerChar c == [c] && upperChar c == [c]) = true := by
    decide
  have hclasses := eq_false_of_solid hsolid hc
  have hform := of_isSpace hforms hc
  simp only [Bool.or_eq_false_iff] at hclasses
  simp only [Bool.and_eq_true, beq_iff_eq] at hform
  obtain ⟨⟨⟨⟨hword, hname⟩, halpha⟩, hcased⟩, hignorable⟩ := hclasses
  exact ⟨hword, hname, halpha, hcased, hignorable, hform.1, hform.2⟩

/-! ## Functions that do not see indentation -/

/-- Whether a function of lines does not see white space in front of the line. -/
def IndentBlind {α : Type} (f : List Char → α) : Prop :=
  ∀ c line, isSpace c = true → f (c :: line) = f line

theorem IndentBlind.trimStart {α : Type} {f : List Char → α} (h : IndentBlind f)
    (line : List Char) : f (trimStart line) = f line := by
  induction line with
  | nil => rfl
  | cons c line ih =>
    rw [Text.trimStart, List.dropWhile_cons]
    split
    · rename_i hc
      rw [h c line hc]
      exact ih
    · rfl

theorem IndentBlind.comp {α β : Type} {f : List Char → α} (h : IndentBlind f) (g : α → β) :
    IndentBlind fun line => g (f line) :=
  fun c line hc => congrArg g (h c line hc)

theorem indentBlind_trimStart : IndentBlind trimStart := by
  intro c line hc
  rw [trimStart, List.dropWhile_cons, if_pos hc, trimStart]

theorem indentBlind_isBlank : IndentBlind isBlank := by
  intro c line hc
  rw [isBlank, List.all_cons, hc, Bool.true_and, isBlank]

/-! ## Searching behind white space -/

/-- Whether a text starts with something other than white space. -/
def startsSolid : List Char → Bool
  | c :: _ => !isSpace c
  | [] => false

theorem isPrefixOf_cons_space {marker : List Char} (hm : startsSolid marker = true) {c : Char}
    (hc : isSpace c = true) (line : List Char) : marker.isPrefixOf (c :: line) = false := by
  cases marker with
  | nil => cases hm
  | cons d marker =>
    have hd : isSpace d = false := by simpa [startsSolid] using hm
    rw [List.isPrefixOf_cons_cons, beq_eq_false_iff_ne.mpr (ne_of_isSpace hc hd).symm,
      Bool.false_and]

theorem contains_cons_space {needle : List Char} (hn : startsSolid needle = true) {c : Char}
    (hc : isSpace c = true) (line : List Char) :
    contains (c :: line) needle = contains line needle := by
  rw [contains, isPrefixOf_cons_space hn hc, Bool.false_or]

theorem beforeFirst_cons_space {marker : List Char} (hm : startsSolid marker = true) {c : Char}
    (hc : isSpace c = true) (line : List Char) :
    beforeFirst marker (c :: line) = c :: beforeFirst marker line := by
  rw [beforeFirst, isPrefixOf_cons_space hm hc]
  rfl

/-! ## Case mappings

The form of a sigma depends on the characters around it, but no farther than to
the next one that case conditions do not look through. -/

/-- Case conditions do not look beyond white space. -/
theorem meetsCased_append_cons {c : Char} (hc : isSpace c = true) (a b : List Char) :
    meetsCased (a ++ c :: b) = meetsCased a := by
  induction a with
  | nil =>
    rw [List.nil_append, meetsCased, List.dropWhile_cons, (plain_of_isSpace hc).ignorable]
    exact (plain_of_isSpace hc).cased
  | cons d a ih =>
    rw [List.cons_append, meetsCased, List.dropWhile_cons, meetsCased, List.dropWhile_cons]
    -- a character that is looked through leaves the answer to the rest; any other gives it
    cases isCaseIgnorable d with
    | true => exact ih
    | false => rfl

/-- What stands in front of white space does not matter behind it. -/
theorem lowerBehind_append_cons {c : Char} (hc : isSpace c = true)
    (before beyond text : List Char) :
    lowerBehind (before ++ c :: beyond) text = lowerBehind before text := by
  induction text generalizing before with
  | nil => rfl
  | cons d text ih =>
    have hrest : lowerBehind (d :: (before ++ c :: beyond)) text = lowerBehind (d :: before) text :=
      ih (d :: before)
    rw [lowerBehind, hrest, isFinalSigma, meetsCased_append_cons hc, lowerBehind, isFinalSigma]

theorem lowerBehind_break {c : Char} (hc : isSpace c = true) (before a b : List Char) :
    lowerBehind before (a ++ c :: b) = lowerBehind before a ++ c :: lower b := by
  induction a generalizing before with
  | nil =>
    have hsigma : c ≠ 'Σ' := ne_of_isSpace hc (by decide)
    have hrest : lowerBehind (c :: before) b = lower b := lowerBehind_append_cons hc [] before b
    rw [lowerBehind, List.nil_append, lowerBehind, if_neg hsigma, (plain_of_isSpace hc).lower,
      hrest]
    rfl
  | cons d a ih =>
    rw [List.cons_append, lowerBehind, ih, lowerBehind, isFinalSigma, isFinalSigma,
      meetsCased_append_cons hc, List.append_assoc]

/-- **White space cuts a text into parts that are made small apart.** -/
theorem lower_break {c : Char} (hc : isSpace c = true) (a b : List Char) :
    lower (a ++ c :: b) = lower a ++ c :: lower b :=
  lowerBehind_break hc [] a b

theorem lower_cons_space {c : Char} (hc : isSpace c = true) (line : List Char) :
    lower (c :: line) = c :: lower line :=
  lower_break hc [] line

theorem upper_break {c : Char} (hc : isSpace c = true) (a b : List Char) :
    upper (a ++ c :: b) = upper a ++ c :: upper b := by
  have hcons : upper (c :: b) = upperChar c ++ upper b := List.flatMap_cons
  rw [upper_append, hcons, (plain_of_isSpace hc).upper]
  rfl

/-- The search in a line that has been mapped part by part. -/
theorem indentBlind_contains {map : List Char → List Char} (hnil : map [] = [])
    (hmap : ∀ {c : Char}, isSpace c = true → ∀ a b, map (a ++ c :: b) = map a ++ c :: map b)
    {needle : List Char} (hn : startsSolid needle = true) :
    IndentBlind fun line => contains (map line) needle := by
  intro c line hc
  have hcons : map (c :: line) = c :: map line := by
    rw [← List.nil_append (c :: line), hmap hc, hnil, List.nil_append]
  simp only [hcons]
  exact contains_cons_space hn hc (map line)

theorem indentBlind_countWord {word : List Char} (hword : startsSolid (lower word) = true) :
    IndentBlind fun line => countWord line word := by
  intro c line hc
  simp only [countWord, lower_cons_space hc, countWordFrom, isPrefixOf_cons_space hword hc,
    (plain_of_isSpace hc).name]
  rfl

end Text

namespace Code

open Text (isSpace)

theorem cutComment_cons_space {marker : List Char} (hm : Text.startsSolid marker = true)
    {c : Char} (hc : isSpace c = true) (inString : Bool) (line : List Char) :
    cutComment marker inString (c :: line) = c :: cutComment marker inString line := by
  have hquote : c ≠ '"' := Text.ne_of_isSpace hc (by decide)
  rw [cutComment, if_neg hquote, Text.isPrefixOf_cons_space hm hc, Bool.and_false]
  rfl

theorem stripComment_cons_space {marker : List Char} (hm : Text.startsSolid marker = true)
    {c : Char} (hc : isSpace c = true) (line : List Char) :
    stripComment (c :: line) marker = c :: stripComment line marker :=
  cutComment_cons_space hm hc false line

theorem codeOnly_cons_space {marker : List Char} (hm : Text.startsSolid marker = true)
    {c : Char} (hc : isSpace c = true) (line : List Char) :
    codeOnly (c :: line) marker = c :: codeOnly line marker := by
  have hquote : c ≠ '"' := Text.ne_of_isSpace hc (by decide)
  have hblank : blankStrings (c :: line) = c :: blankStrings line := by
    rw [blankStrings, dropContents, if_neg hquote, blankStrings]
    rfl
  rw [codeOnly, hblank, stripComment_cons_space hm hc, codeOnly]

end Code
end LineLint
