import LineLint.Code.Comment
import LineLint.Code.Header
import LineLint.Proofs.LetterCase.Letters
import LineLint.Text.Lines
import LineLint.Text.Search

/-! # Cutting texts in small letters

Lines end, comments begin and strings are delimited at characters that are no
letters.  Cutting a text there commutes with making its letters small.
-/
namespace LineLint
namespace Text

/-- A marker without letters stands in the same places. -/
theorem isPrefixOf_asciiLower {marker : List Char} (hm : marker.any Char.isAlpha = false)
    (text : List Char) : marker.isPrefixOf (asciiLower text) = marker.isPrefixOf text := by
  induction marker generalizing text with
  | nil => rfl
  | cons d marker ih =>
    cases text with
    | nil => rfl
    | cons c text =>
      rw [List.any_cons, Bool.or_eq_false_iff] at hm
      have hd : (d == c.toLower) = (d == c) := by
        have h : (c.toLower == d) = (c == d) := caseBlind_eq hm.1 c
        rw [Bool.beq_comm, h, Bool.beq_comm]
      rw [asciiLower_cons, List.isPrefixOf_cons_cons, List.isPrefixOf_cons_cons, hd, ih hm.2]

theorem contains_asciiLower_char {d : Char} (hd : d.isAlpha = false) (text : List Char) :
    (asciiLower text).contains d = text.contains d := by
  induction text with
  | nil => rfl
  | cons c text ih =>
    have h : (c.toLower == d) = (c == d) := caseBlind_eq hd c
    rw [asciiLower_cons, List.contains_cons, List.contains_cons, ih, Bool.beq_comm, h,
      Bool.beq_comm]

theorem count_asciiLower {d : Char} (hd : d.isAlpha = false) (text : List Char) :
    (asciiLower text).count d = text.count d := by
  induction text with
  | nil => rfl
  | cons c text ih =>
    have h : (c.toLower == d) = (c == d) := caseBlind_eq hd c
    rw [asciiLower_cons, List.count_cons, List.count_cons, ih, h]

theorem beforeFirst_asciiLower {marker : List Char} (hm : marker.any Char.isAlpha = false)
    (text : List Char) :
    beforeFirst marker (asciiLower text) = asciiLower (beforeFirst marker text) := by
  induction text with
  | nil => rfl
  | cons c text ih =>
    have hprefix := isPrefixOf_asciiLower hm (c :: text)
    rw [asciiLower_cons] at hprefix ⊢
    rw [beforeFirst, beforeFirst, hprefix]
    split
    · rfl
    · rw [ih, asciiLower_cons]

/-- A row with its line in small letters. -/
def Row.lower (row : Row) : Row :=
  ⟨asciiLower row.line, asciiLower row.ending⟩

/-- Lines end in the same places. -/
theorem rows_asciiLower (text : List Char) :
    rows (asciiLower text) = (rows text).map Row.lower := by
  fun_induction rows text with
  | case1 => rfl
  | case2 rest ih =>
    rw [show asciiLower ('\r' :: '\n' :: rest) = '\r' :: '\n' :: asciiLower rest from rfl,
      rows_crlf, ih]
    rfl
  | case3 rest hlone ih =>
    -- no letter becomes a line feed, so what was no `\r\n` does not turn into one
    have hhead : (asciiLower rest).head? ≠ some '\n' := by
      cases rest with
      | nil =>
        intro hc
        cases hc
      | cons c rest =>
        intro hc
        have hc : c.toLower = '\n' := Option.some.inj hc
        exact hlone rest (by rw [(toLower_eq_iff (by decide)).mp hc])
    rw [show asciiLower ('\r' :: rest) = '\r' :: asciiLower rest from rfl, rows_cr hhead, ih]
    rfl
  | case4 rest ih =>
    rw [show asciiLower ('\n' :: rest) = '\n' :: asciiLower rest from rfl, rows_lf, ih]
    rfl
  | case5 c rest _ hr hn row more hrows ih =>
    have hr' : c.toLower ≠ '\r' := mt (toLower_eq_iff (by decide)).mp hr
    have hn' : c.toLower ≠ '\n' := mt (toLower_eq_iff (by decide)).mp hn
    obtain ⟨row', more', hrows', hcons⟩ := rows_cons_of_ne hr' hn' (asciiLower rest)
    rw [ih, hrows, List.map_cons, List.cons.injEq] at hrows'
    rw [asciiLower_cons, hcons, ← hrows'.1, ← hrows'.2]
    rfl
  | case6 c rest _ _ _ hrows => exact absurd hrows (rows_ne_nil rest)

theorem lines_asciiLower (text : List Char) :
    lines (asciiLower text) = (lines text).map asciiLower := by
  rw [lines, rows_asciiLower, lines, List.map_map, List.map_map]
  rfl

end Text

namespace Code

open Text (asciiLower)

theorem cutComment_asciiLower {marker : List Char} (hm : marker.any Char.isAlpha = false)
    (inString : Bool) (line : List Char) :
    cutComment marker inString (asciiLower line) =
      asciiLower (cutComment marker inString line) := by
  induction line generalizing inString with
  | nil => rfl
  | cons c line ih =>
    have hquote : c.toLower = '"' ↔ c = '"' := Text.toLower_eq_iff (by decide)
    have hprefix := Text.isPrefixOf_asciiLower hm (c :: line)
    rw [Text.asciiLower_cons] at hprefix ⊢
    rw [cutComment, cutComment, hprefix, ih, ih]
    by_cases hc : c = '"'
    · rw [if_pos (hquote.mpr hc), if_pos hc, Text.asciiLower_cons]
    · rw [if_neg (mt hquote.mp hc), if_neg hc]
      split
      · rfl
      · rw [Text.asciiLower_cons]

theorem stripComment_asciiLower {marker : List Char} (hm : marker.any Char.isAlpha = false)
    (line : List Char) :
    stripComment (asciiLower line) marker = asciiLower (stripComment line marker) :=
  cutComment_asciiLower hm false line

theorem dropContents_asciiLower (inString : Bool) (line : List Char) :
    dropContents inString (asciiLower line) = asciiLower (dropContents inString line) := by
  induction line generalizing inString with
  | nil => rfl
  | cons c line ih =>
    have hquote : c.toLower = '"' ↔ c = '"' := Text.toLower_eq_iff (by decide)
    rw [Text.asciiLower_cons, dropContents, dropContents,
      Text.contains_asciiLower_char (by decide) line, ih, ih, ih]
    by_cases hc : c = '"'
    · rw [if_pos (hquote.mpr hc), if_pos hc, Text.asciiLower_cons]
    · rw [if_neg (mt hquote.mp hc), if_neg hc]
      split
      · rfl
      · rw [Text.asciiLower_cons]

theorem codeOnly_asciiLower {marker : List Char} (hm : marker.any Char.isAlpha = false)
    (line : List Char) : codeOnly (asciiLower line) marker = asciiLower (codeOnly line marker) := by
  rw [codeOnly, blankStrings, dropContents_asciiLower, stripComment_asciiLower hm, codeOnly,
    blankStrings]

theorem splitAtFirst_asciiLower {close : Char} (hclose : close.isAlpha = false)
    (text : List Char) :
    splitAtFirst close (asciiLower text) =
      (splitAtFirst close text).map (Prod.map asciiLower asciiLower) := by
  induction text with
  | nil => rfl
  | cons c text ih =>
    have hc : c.toLower = close ↔ c = close := Text.toLower_eq_iff hclose
    rw [Text.asciiLower_cons, splitAtFirst, splitAtFirst, ih]
    by_cases h : c = close
    · rw [if_pos (hc.mpr h), if_pos h]
      rfl
    · rw [if_neg (mt hc.mp h), if_neg h, Option.map_map, Option.map_map]
      rfl

theorem countParams_asciiLower (params : List Char) :
    countParams (asciiLower params) = countParams params := by
  rw [countParams, Text.isBlank_asciiLower, Text.count_asciiLower (by decide), countParams]

end Code
end LineLint
