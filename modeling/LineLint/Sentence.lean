import LineLint.Text.Case
import LineLint.Text.Space

/-! # Sentences

A summary is one sentence: it starts with a capital letter, ends in a period and
has at most `Sentence.maxLength` characters.  `Sentence.ofText` makes one of any
text.
-/
namespace LineLint
namespace Sentence

/-- The sentence for a text that says nothing. -/
def fallback : List Char :=
  "Analyzes generic code snippet.".toList

/-- Most characters in a sentence. -/
def maxLength : Nat := 120

/-- The text with its first letter capitalized. -/
def capitalize : List Char → List Char
  | [] => []
  | c :: rest => Text.upperChar c ++ rest

/-- The text with a period at its end. -/
def terminate (text : List Char) : List Char :=
  if text.getLast? = some '.' then text else text ++ ['.']

/-- A sentence of at most `maxLength` characters: a longer one is cut, loses the periods and
blanks at the cut, and gets a period instead. -/
def shorten (text : List Char) : List Char :=
  if maxLength < text.length then
    ((text.take (maxLength - 1)).reverse.dropWhile fun c => c == '.' || c == ' ').reverse ++ ['.']
  else text

/-- Makes a sentence of a text. -/
def ofText (text : List Char) : List Char :=
  match Text.trim text with
  | [] => fallback
  | c :: rest => shorten (terminate (capitalize (c :: rest)))

@[simp] theorem getLast?_terminate (text : List Char) :
    (terminate text).getLast? = some '.' := by
  unfold terminate
  split
  · assumption
  · simp

theorem length_shorten_le (text : List Char) : (shorten text).length ≤ maxLength := by
  unfold shorten
  split
  · have := (List.dropWhile_sublist (fun c => c == '.' || c == ' ')
      (l := (text.take (maxLength - 1)).reverse)).length_le
    simp only [List.length_reverse, List.length_take, List.length_append,
      List.length_singleton] at *
    have : (0 : Nat) < maxLength := by decide
    omega
  · omega

end Sentence
end LineLint
