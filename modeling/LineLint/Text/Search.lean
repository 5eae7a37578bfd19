import LineLint.Text.Case
import LineLint.Text.WordChar

/-! # Searching in texts

Substrings, the text in front of a marker, and whole-word counts.
-/
namespace LineLint
namespace Text

/-- Whether `needle` occurs in the text. -/
def contains (text needle : List Char) : Bool :=
  match text with
  | [] => needle.isEmpty
  | c :: rest => needle.isPrefixOf (c :: rest) || contains rest needle

/-- The text in front of the first occurrence of `marker`, or the whole text. -/
def beforeFirst (marker : List Char) : List Char → List Char
  | [] => []
  | c :: rest =>
    if marker.isPrefixOf (c :: rest) then [] else c :: beforeFirst marker rest

/-- Whether the text begins with a character of names. -/
def startsInName : List Char → Bool
  | c :: _ => isNameChar c
  | [] => false

/-- Counts the occurrences of `word` that touch no name character on either side.
`inName` tells whether the character in front of the text is one, and `skip` how many
characters of the text belong to an occurrence already looked at. -/
def countWordFrom (word : List Char) (inName : Bool) (skip : Nat) : List Char → Nat
  | [] => if skip = 0 && word.isEmpty && !inName then 1 else 0
  | c :: rest =>
    match skip with
    | skip + 1 => countWordFrom word (isNameChar c) skip rest
    | 0 =>
      if word.isPrefixOf (c :: rest) then
        (if inName || startsInName ((c :: rest).drop word.length) then 0 else 1) +
          countWordFrom word (isNameChar c) (word.length - 1) rest
      else countWordFrom word (isNameChar c) 0 rest

/-- Counts the whole-word occurrences of `word` in the line, in any case.  Occurrences are
looked for from left to right and do not overlap. -/
def countWord (line word : List Char) : Nat :=
  countWordFrom (lower word) false 0 (lower line)

theorem contains_iff (text needle : List Char) :
    contains text needle = true ↔ needle <:+: text := by
  induction text with
  | nil => simp [contains]
  | cons c rest ih => simp [contains, ih, List.infix_cons_iff]

end Text
end LineLint
