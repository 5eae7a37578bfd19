import LineLint.Pattern.Vocabulary
import LineLint.Rule.Basic
import LineLint.Text.Digit

/-! # Repeated literals

Strings and numbers that occur on several lines.  Strings are compared in small
letters and numbers by their digits, and the two are never the same literal.
Literals are reported in the order in which they are first recorded: line by
line, and on each line the strings before the numbers.
-/
namespace LineLint
namespace Literal

open Pattern

/-- What makes two occurrences the same literal. -/
inductive Key where
  /-- The contents of a string in small letters. -/
  | text (contents : List Char)
  /-- The digits of a number. -/
  | number (digits : List Char)
  deriving DecidableEq, Repr

/-- A literal on a line. -/
structure Occurrence where
  /-- Which literal it is. -/
  key : Key
  /-- How it is written. -/
  spelling : List Char
  /-- Number of the line. -/
  line : Nat
  deriving DecidableEq, Repr

/-- A string between two quotes. -/
def stringPattern (quote : Char) : Pattern :=
  exactly quote ++ named .content (allBut quote) ++ exactly quote

/-- A number with an optional fraction, touching no word. -/
def numberPattern : Pattern :=
  edge ++ oneOrMore Text.isDigit ++ optional (exactly '.' ++ oneOrMore Text.isDigit) ++ edge

/-- The quote that strings are written with. -/
def quoteOf : Dialect → Char
  | .sql => '\''
  | _ => '"'

/-- Whether a match starts inside another one. -/
def startsInside (m other : Match) : Bool :=
  other.offset ≤ m.offset && m.offset < other.offset + other.length

/-- The literals on a line: strings that are not empty, and then numbers outside of strings. -/
def onLine (quote : Char) (line : List Char) : List (Key × List Char) :=
  let strings := (stringPattern quote).allMatches line
  let numbers := (numberPattern.allMatches line).filter fun m => !strings.any (startsInside m ·)
  ((strings.map (·.part .content)).filter (!·.isEmpty)).map
      (fun contents => (Key.text (Text.lower contents), contents)) ++
    numbers.map fun m => (Key.number m.text, m.text)

/-- The literals of a snippet, in the order in which they are recorded. -/
def occurrences (snippet : Snippet) : List Occurrence :=
  snippet.numberedLines.flatMap fun numbered =>
    (onLine (quoteOf snippet.dialect) numbered.1).map fun literal =>
      ⟨literal.1, literal.2, numbered.2⟩

/-- The first occurrence of each literal. -/
def firstOccurrences (seen : List Key) : List Occurrence → List Occurrence
  | [] => []
  | occurrence :: rest =>
    if seen.contains occurrence.key then firstOccurrences seen rest
    else occurrence :: firstOccurrences (occurrence.key :: seen) rest

/-- The lines on which a literal occurs, in order and with repetitions. -/
def linesOf (all : List Occurrence) (key : Key) : List Nat :=
  (all.filter fun occurrence => occurrence.key == key).map (·.line)

/-- Number of different lines in a list that is in order. -/
def countDistinct (lines : List Nat) : Nat :=
  lines.eraseReps.length

end Literal

namespace Rule

/-- Fewest lines on which a literal has to occur, unless configured otherwise. -/
def defaultMinLines : Nat := 3

/-- Literals that occur on several lines. -/
def repeatedLiteral (minLines : Nat) : Rule where
  name := "Smell.RepeatedLiteral"
  family := .smell
  appliesTo := fun _ => true
  severity := .info
  description := "Flags string and numeric literals repeated on three or more lines"
  check := fun snippet =>
    let all := Literal.occurrences snippet
    let repeated := (Literal.firstOccurrences [] all).filter fun first =>
      minLines ≤ Literal.countDistinct (Literal.linesOf all first.key)
    repeated.map fun first =>
      { kind := "Smell.RepeatedLiteral"
        line := some first.line
        message := "Literal '" ++ String.ofList first.spelling ++ "' appears " ++
          toString (Literal.linesOf all first.key).length ++ " times."
        suggestion := "Extract to a constant or parameter to improve maintainability."
        severity := .info }

end Rule
end LineLint
