import LineLint.Proofs.Layout.Rules
import LineLint.Rule.RepeatedLiteral

/-! # Literals on indented lines

Quotes are paired from the start of the line and white space is none of them, so
strings and numbers on an indented line are those on the line itself, further on
by the same distance.  The check of repeated literals ignores the layout.
-/
namespace LineLint

open Text (IndentBlind)

namespace Literal

open Pattern

theorem startsInside_behind (c : Char) (m other : Match) :
    startsInside (m.behind c) (other.behind c) = startsInside m other := by
  -- both stretches lie one character further on
  have hstart : decide (other.offset + 1 ≤ m.offset + 1) = decide (other.offset ≤ m.offset) :=
    decide_eq_decide.mpr Nat.add_le_add_iff_right
  have hstop : decide (m.offset + 1 < other.offset + 1 + other.length) =
      decide (m.offset < other.offset + other.length) := decide_eq_decide.mpr (by omega)
  simp only [startsInside, Match.offset_behind, Match.length_behind, hstart, hstop]

/-- Numbers outside of strings are the same ones behind white space. -/
theorem numbers_behind (c : Char) (strings numbers : List Match) :
    ((numbers.map (Match.behind c)).filter fun m =>
        !(strings.map (Match.behind c)).any (startsInside m ·)) =
      (numbers.filter fun m => !strings.any (startsInside m ·)).map (Match.behind c) := by
  have hinside : (fun m => !(strings.map (Match.behind c)).any (startsInside m ·)) ∘
      Match.behind c = fun m => !strings.any (startsInside m ·) := by
    funext m
    simp only [Function.comp_apply, List.any_map, Function.comp_def, startsInside_behind]
  rw [List.filter_map, hinside]

theorem indentBlind_onLine (dialect : Dialect) : IndentBlind (onLine (quoteOf dialect)) := by
  have hstrings : ∀ {c : Char}, Text.isSpace c = true → ∀ line : List Char,
      (stringPattern (quoteOf dialect)).allMatches (c :: line) =
        ((stringPattern (quoteOf dialect)).allMatches line).map (Match.behind c) :=
    allMatches_cons_space rfl (by cases dialect <;> decide)
  intro c line hc
  rw [onLine, hstrings hc, allMatches_cons_space (by decide) (by decide) hc,
    numbers_behind, List.map_map, List.map_map, onLine]
  simp only [Function.comp_def, Match.part_behind, Match.text_behind]

theorem occurrences_congr {s t : Snippet} (h : s.Alike t) : occurrences s = occurrences t := by
  simp only [occurrences, h.dialect]
  refine h.flatMap_numberedLines ?_
  intro number c line hc
  simp only [indentBlind_onLine t.dialect c line hc]

end Literal

namespace Rule

theorem ignoresLayout_repeatedLiteral (minLines : Nat) :
    (repeatedLiteral minLines).IgnoresLayout := by
  intro s t h
  simp only [repeatedLiteral, Literal.occurrences_congr h]

end Rule
end LineLint
