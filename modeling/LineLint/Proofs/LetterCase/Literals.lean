import LineLint.Proofs.LetterCase.Rules
import LineLint.Proofs.Pattern.Progress
import LineLint.Rule.RepeatedLiteral

/-! # Literals in small letters

Strings are the same literal if they are equal in small letters, and a number has
no letters at all (`Literal.asciiLower_number`).  So a text in small letters has
the same literals on the same lines, only spelled differently.
-/
namespace LineLint
namespace Literal

open Text (asciiLower)
open Pattern

/-! ## Literals on a line -/

theorem isAlpha_quoteOf (dialect : Dialect) : (quoteOf dialect).isAlpha = false := by
  cases dialect <;> decide

theorem caseBlind_stringPattern {quote : Char} (hquote : quote.isAlpha = false) :
    (stringPattern quote).CaseBlind := by
  simp [stringPattern, hquote]

theorem caseBlind_numberPattern : numberPattern.CaseBlind := by
  simp [numberPattern, caseBlind_oneOrMore Text.caseBlind_isDigit]

theorem toLower_of_isDigit {c : Char} (hc : Text.isDigit c = true) : c.toLower = c := by
  have hcapitals : Text.capitals.any Text.isDigit = false := by decide
  refine Text.toLower_of_not_mem_capitals ?_
  intro hmem
  exact List.any_eq_false.mp hcapitals c hmem hc

/-- A number has no letters. -/
theorem asciiLower_number {line : List Char} {m : Match} (hm : m ∈ numberPattern.allMatches line) :
    asciiLower m.text = m.text := by
  have hdot : ∀ c : Char, (c == '.') = true → c.toLower = c := by
    intro c hc
    rw [eq_of_beq hc]
    decide
  have hdigits : (oneOrMore Text.isDigit).Within fun c => c.toLower = c :=
    ⟨fun _ => toLower_of_isDigit, fun _ => toLower_of_isDigit⟩
  have hwithin : numberPattern.Within fun c => c.toLower = c :=
    ⟨⟨⟨trivial, hdigits⟩, ⟨hdot, hdigits⟩, trivial⟩, trivial⟩
  exact (List.map_congr_left (text_within hwithin hm)).trans (List.map_id' m.text)

theorem startsInside_lower (m other : Match) :
    startsInside m.lower other.lower = startsInside m other := by
  simp only [startsInside, Match.offset_lower, Match.length_lower]

/-- Strings have the same keys. -/
theorem strings_lower (strings : List Match) :
    (((strings.map Match.lower).map (·.part .content)).filter (!·.isEmpty)).map
        (fun contents => (Key.text (Text.lower contents), contents)) =
      (((strings.map (·.part .content)).filter (!·.isEmpty)).map
        fun contents => (Key.text (Text.lower contents), contents)).map
          (Prod.map id asciiLower) := by
  have hempty : (fun contents : List Char => !contents.isEmpty) ∘ asciiLower =
      fun contents => !contents.isEmpty := by
    funext contents
    exact congrArg (!·) (Text.isEmpty_asciiLower contents)
  rw [Match.map_part_lower, List.filter_map, hempty, List.map_map, List.map_map]
  refine List.map_congr_left ?_
  intro contents _
  simp

/-- Numbers outside of strings have the same keys. -/
theorem numbers_asciiLower (strings : List Match) (line : List Char) :
    ((numberPattern.allMatches (asciiLower line)).filter
        fun m => !(strings.map Match.lower).any (startsInside m ·)).map
          (fun m => (Key.number m.text, m.text)) =
      (((numberPattern.allMatches line).filter fun m => !strings.any (startsInside m ·)).map
        fun m => (Key.number m.text, m.text)).map (Prod.map id asciiLower) := by
  have hinside : (fun m => !(strings.map Match.lower).any (startsInside m ·)) ∘ Match.lower =
      fun m => !strings.any (startsInside m ·) := by
    funext m
    simp only [Function.comp_apply, List.any_map, Function.comp_def, startsInside_lower]
  rw [allMatches_lower caseBlind_numberPattern, List.filter_map, hinside, List.map_map,
    List.map_map]
  refine List.map_congr_left ?_
  intro m hm
  have hsmall : asciiLower m.text = m.text := asciiLower_number (List.mem_filter.mp hm).1
  simp [hsmall]

theorem onLine_asciiLower {quote : Char} (hquote : quote.isAlpha = false) (line : List Char) :
    onLine quote (asciiLower line) = (onLine quote line).map (Prod.map id asciiLower) := by
  simp only [onLine, allMatches_lower (caseBlind_stringPattern hquote), List.map_append]
  rw [strings_lower, numbers_asciiLower]

/-! ## Literals in a snippet -/

/-- The same literal spelled in small letters. -/
def Occurrence.lower (occurrence : Occurrence) : Occurrence :=
  { occurrence with spelling := asciiLower occurrence.spelling }

theorem occurrences_lower (snippet : Snippet) :
    occurrences snippet.lower = (occurrences snippet).map Occurrence.lower := by
  refine snippet.flatMap_numberedLines_lower ?_
  intro line number
  rw [Snippet.dialect_lower, onLine_asciiLower (isAlpha_quoteOf snippet.dialect), List.map_map,
    List.map_map]
  rfl

theorem firstOccurrences_lower (seen : List Key) (all : List Occurrence) :
    firstOccurrences seen (all.map Occurrence.lower) =
      (firstOccurrences seen all).map Occurrence.lower := by
  induction all generalizing seen with
  | nil => rfl
  | cons occurrence all ih =>
    rw [List.map_cons, firstOccurrences, firstOccurrences,
      show occurrence.lower.key = occurrence.key from rfl, ih, ih]
    split
    · rfl
    · rfl

theorem linesOf_lower (all : List Occurrence) (key : Key) :
    linesOf (all.map Occurrence.lower) key = linesOf all key := by
  rw [linesOf, List.filter_map, List.map_map]
  rfl

end Literal

namespace Rule

/-- The literals that are repeated, and the lines where they are, do not depend on letter case
in any dialect. -/
theorem ignoresCase_repeatedLiteral (minLines : Nat) (dialect : Dialect) :
    (repeatedLiteral minLines).IgnoresCase dialect := by
  intro snippet _
  simp only [repeatedLiteral, Literal.occurrences_lower, Literal.firstOccurrences_lower,
    Literal.linesOf_lower, List.filter_map, List.map_map]
  rfl

end Rule
end LineLint
