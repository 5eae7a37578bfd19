import LineLint.Proofs.Literal.Numbers
import LineLint.Proofs.Literal.Strings
import LineLint.Proofs.Report.Order
import Mathlib.Data.Prod.Lex

/-! # Where literals stand

Occurrences of literals are recorded with their lines.  With their columns added
(`Literal.placed`) they can be told apart, and be described without a sweep: at the place
stands a string that is not empty, or a number that is in no string (`Literal.OccursAt`,
`Literal.mem_placed_iff`).

They are recorded line by line, and on each line the strings come before the numbers
(`Literal.pairwise_placed`).  The occurrences of one literal are strings all of them or
numbers all of them, so these are recorded in the order of the text.
-/
namespace LineLint

/-- Lines have different numbers. -/
theorem Snippet.line_unique {snippet : Snippet} {line line' : List Char} {number : Nat}
    (h : (line, number) ∈ snippet.numberedLines) (h' : (line', number) ∈ snippet.numberedLines) :
    line = line' := by
  obtain ⟨-, -, hline⟩ := List.mem_zipIdx h
  obtain ⟨-, -, hline'⟩ := List.mem_zipIdx h'
  exact hline.trans hline'.symm

namespace Literal

open Pattern
open Cursor (touchesWord)
open Text (Run isDigit)

/-- Whether a literal is a number. -/
def Key.isNumber : Key → Bool
  | .text _ => false
  | .number _ => true

/-- An occurrence of a literal at a place of its line. -/
structure Placed extends Occurrence where
  /-- Number of characters in front of it. -/
  column : Nat
  deriving DecidableEq, Repr

namespace Placed
variable {a b : Placed}

/-- The place of an occurrence, in the order of the text. -/
def place (found : Placed) : ℕ ×ₗ ℕ :=
  toLex (found.line, found.column)

/-- When an occurrence is recorded: on a line, strings come before numbers. -/
def rank (found : Placed) : ℕ ×ₗ Bool ×ₗ ℕ :=
  toLex (found.line, toLex (found.key.isNumber, found.column))

theorem place_lt_iff :
    a.place < b.place ↔ a.line < b.line ∨ a.line = b.line ∧ a.column < b.column :=
  Prod.Lex.toLex_lt_toLex

theorem rank_lt_iff :
    a.rank < b.rank ↔ a.line < b.line ∨ a.line = b.line ∧
      (a.key.isNumber < b.key.isNumber ∨
        a.key.isNumber = b.key.isNumber ∧ a.column < b.column) := by
  rw [rank, rank, Prod.Lex.toLex_lt_toLex, Prod.Lex.toLex_lt_toLex]

/-- What stands first in the text is recorded first, unless it is a number and the other one a
string on the same line. -/
theorem rank_lt_iff_of_place_lt (h : a.place < b.place) :
    a.rank < b.rank ↔
      ¬ (a.key.isNumber = true ∧ b.key.isNumber = false ∧ a.line = b.line) := by
  rw [rank_lt_iff]
  rcases place_lt_iff.mp h with hlt | ⟨heq, hlt⟩
  · exact iff_of_true (Or.inl hlt) fun hboth => Nat.ne_of_lt hlt hboth.2.2
  · cases a.key.isNumber <;> cases b.key.isNumber <;> simp [heq, hlt]

/-- Literals of one kind are recorded in the order of the text. -/
theorem rank_lt_iff_place_lt (h : a.key.isNumber = b.key.isNumber) :
    a.rank < b.rank ↔ a.place < b.place := by
  simp [rank_lt_iff, place_lt_iff, h]

end Placed

/-- What the matches on a line stand for, of those that count. -/
def placedMatches (p : Pattern) (counts : Match → Bool) (literal : Match → Key × List Char)
    (number : Nat) (line : List Char) : List Placed :=
  ((p.allMatches line).filter counts).map fun m =>
    ⟨⟨(literal m).1, (literal m).2, number⟩, m.offset⟩

/-- The strings on a line that are not empty. -/
def placedStrings (quote : Char) : Nat → List Char → List Placed :=
  placedMatches (stringPattern quote) (fun m => !(m.part .content).isEmpty)
    fun m => (.text (Text.lower (m.part .content)), m.part .content)

/-- The numbers on a line that are in no string. -/
def placedNumbers (quote : Char) (number : Nat) (line : List Char) : List Placed :=
  placedMatches numberPattern
    (fun m => !((stringPattern quote).allMatches line).any (startsInside m ·))
    (fun m => (.number m.text, m.text)) number line

/-- The occurrences of a snippet with their places, as they are recorded. -/
def placed (snippet : Snippet) : List Placed :=
  snippet.numberedLines.flatMap fun numbered =>
    placedStrings (quoteOf snippet.dialect) numbered.2 numbered.1 ++
      placedNumbers (quoteOf snippet.dialect) numbered.2 numbered.1

theorem map_toOccurrence_placed (snippet : Snippet) :
    (placed snippet).map Placed.toOccurrence = occurrences snippet := by
  rw [placed, List.map_flatMap, occurrences]
  congr 1
  funext numbered
  simp only [onLine, placedStrings, placedNumbers, placedMatches, List.map_append, List.map_map,
    List.filter_map]
  rfl

/-! ## The order of records -/

section
variable {p : Pattern} {counts : Match → Bool} {literal : Match → Key × List Char}
  {number : Nat} {line : List Char} {found : Placed}

theorem mem_placedMatches :
    found ∈ placedMatches p counts literal number line ↔
      ∃ m ∈ p.allMatches line, counts m = true ∧
        ⟨⟨(literal m).1, (literal m).2, number⟩, m.offset⟩ = found := by
  simp only [placedMatches, List.mem_map, List.mem_filter, and_assoc]

theorem line_of_mem_placedMatches (h : found ∈ placedMatches p counts literal number line) :
    found.line = number := by
  obtain ⟨m, -, -, rfl⟩ := mem_placedMatches.mp h
  rfl

/-- Literals of one kind on one line. -/
theorem pairwise_placedMatches {kind : Bool} (hkind : ∀ m, (literal m).1.isNumber = kind) :
    (placedMatches p counts literal number line).Pairwise fun a b => a.rank < b.rank := by
  rw [placedMatches, List.pairwise_map]
  refine ((p.pairwise_allMatches line).filter counts).imp ?_
  rintro m later ⟨hlt, -⟩
  have hsame := (hkind m).trans (hkind later).symm
  exact Placed.rank_lt_iff.mpr (Or.inr ⟨rfl, Or.inr ⟨hsame, hlt⟩⟩)

end

/-- **The order of records**: by lines, on a line the strings before the numbers, and each of
them by columns. -/
theorem pairwise_placed (snippet : Snippet) :
    (placed snippet).Pairwise fun a b => a.rank < b.rank := by
  rw [placed, List.pairwise_flatMap]
  constructor
  · intro numbered _
    rw [List.pairwise_append]
    refine ⟨pairwise_placedMatches fun _ => rfl, pairwise_placedMatches fun _ => rfl, ?_⟩
    intro a ha b hb
    obtain ⟨m, -, -, rfl⟩ := mem_placedMatches.mp ha
    obtain ⟨later, -, -, rfl⟩ := mem_placedMatches.mp hb
    exact Placed.rank_lt_iff.mpr (Or.inr ⟨rfl, Or.inl Bool.false_lt_true⟩)
  · refine snippet.pairwise_numberedLines.imp ?_
    intro numbered later hlt a ha b hb
    have hline : ∀ {numbered : List Char × Nat} {found : Placed},
        found ∈ placedStrings (quoteOf snippet.dialect) numbered.2 numbered.1 ++
          placedNumbers (quoteOf snippet.dialect) numbered.2 numbered.1 →
        found.line = numbered.2 := fun h =>
      (List.mem_append.mp h).elim line_of_mem_placedMatches line_of_mem_placedMatches
    refine Placed.rank_lt_iff.mpr (Or.inl ?_)
    rw [hline ha, hline hb]
    exact hlt

/-- No two records are made of one kind at one place. -/
theorem eq_of_rank_eq {snippet : Snippet} {a b : Placed} (ha : a ∈ placed snippet)
    (hb : b ∈ placed snippet) (h : a.rank = b.rank) : a = b := by
  have hforward : (placed snippet).Pairwise fun a b => a.rank = b.rank → a = b :=
    (pairwise_placed snippet).imp fun hlt heq => absurd heq hlt.ne
  have hbackward : (placed snippet).Pairwise fun a b => b.rank = a.rank → b = a :=
    (pairwise_placed snippet).imp fun hlt heq => absurd heq hlt.ne'
  exact hforward.forall_of_forall_of_flip (fun _ _ _ => rfl) hbackward ha hb h

/-! ## What stands at a place -/

/-- Whether a column of a line is in a string, its quotes included. -/
def InString (quote : Char) (line : List Char) (column : Nat) : Prop :=
  ∃ start contents, StringAt quote line start contents ∧
    start ≤ column ∧ column < start + (contents.length + 2)

/-- The literals that stand on a line behind `column` characters, and how they are written. -/
inductive StandsOn (quote : Char) (line : List Char) (column : Nat) : Key → List Char → Prop
  /-- A string that is not empty, in any case. -/
  | string {contents : List Char} (hat : StringAt quote line column contents)
    (hne : contents ≠ []) : StandsOn quote line column (.text (Text.lower contents)) contents
  /-- A number that is in no string. -/
  | number {digits : List Char} (hat : NumberAt line column digits)
    (houtside : ¬ InString quote line column) :
    StandsOn quote line column (.number digits) digits

/-- Whether a literal, written as `spelling`, stands at a place of a snippet. -/
def OccursAt (snippet : Snippet) (key : Key) (spelling : List Char) (number column : Nat) : Prop :=
  ∃ line, (line, number) ∈ snippet.numberedLines ∧
    StandsOn (quoteOf snippet.dialect) line column key spelling

theorem any_startsInside_iff (quote : Char) (line : List Char) (m : Match) :
    ((stringPattern quote).allMatches line).any (startsInside m ·) = true ↔
      InString quote line m.offset := by
  simp only [List.any_eq_true, startsInside, Bool.and_eq_true, decide_eq_true_eq]
  constructor
  · rintro ⟨other, hother, hinside⟩
    obtain ⟨front, contents, back, hline, hcontents, heven, rfl⟩ := mem_strings_iff.mp hother
    rw [offset_stringMatch, length_stringMatch, List.length_reverse] at hinside
    exact ⟨front.length, contents, ⟨front, back, hline, rfl, hcontents, heven⟩, hinside⟩
  · rintro ⟨start, contents, ⟨front, back, hline, rfl, hcontents, heven⟩, hinside⟩
    refine ⟨_, mem_strings_iff.mpr ⟨front, contents, back, hline, hcontents, heven, rfl⟩, ?_⟩
    rwa [offset_stringMatch, length_stringMatch, List.length_reverse]

theorem mem_placedStrings_iff {quote : Char} {number : Nat} {line : List Char} {found : Placed} :
    found ∈ placedStrings quote number line ↔ found.line = number ∧
      found.key.isNumber = false ∧ StandsOn quote line found.column found.key found.spelling := by
  rw [placedStrings, mem_placedMatches]
  constructor
  · rintro ⟨m, hm, hcounts, rfl⟩
    have hat := exists_mem_strings_iff.mp ⟨m, hm, rfl, rfl⟩
    exact ⟨rfl, rfl, .string hat (by simpa using hcounts)⟩
  · obtain ⟨⟨key, spelling, _⟩, column⟩ := found
    rintro ⟨rfl, htext, hstands⟩
    dsimp only at hstands
    cases hstands with
    | string hat hne =>
      obtain ⟨m, hm, rfl, rfl⟩ := exists_mem_strings_iff.mpr hat
      exact ⟨m, hm, by simpa using hne, rfl⟩
    | number => cases htext

theorem mem_placedNumbers_iff {quote : Char} {number : Nat} {line : List Char} {found : Placed} :
    found ∈ placedNumbers quote number line ↔ found.line = number ∧
      found.key.isNumber = true ∧ StandsOn quote line found.column found.key found.spelling := by
  rw [placedNumbers, mem_placedMatches]
  constructor
  · rintro ⟨m, hm, hcounts, rfl⟩
    have hat := exists_mem_numbers_iff.mp ⟨m, hm, rfl, rfl⟩
    rw [Bool.not_eq_true', ← Bool.not_eq_true, any_startsInside_iff] at hcounts
    exact ⟨rfl, rfl, .number hat hcounts⟩
  · obtain ⟨⟨key, spelling, _⟩, column⟩ := found
    rintro ⟨rfl, hnumber, hstands⟩
    dsimp only at hstands
    cases hstands with
    | string => cases hnumber
    | number hat houtside =>
      obtain ⟨m, hm, rfl, rfl⟩ := exists_mem_numbers_iff.mpr hat
      refine ⟨m, hm, ?_, rfl⟩
      rwa [Bool.not_eq_true', ← Bool.not_eq_true, any_startsInside_iff]

/-- **What is recorded** are the literals that stand on the lines. -/
theorem mem_placed_iff {snippet : Snippet} {found : Placed} :
    found ∈ placed snippet ↔
      OccursAt snippet found.key found.spelling found.line found.column := by
  simp only [placed, List.mem_flatMap, List.mem_append, mem_placedStrings_iff,
    mem_placedNumbers_iff]
  constructor
  · rintro ⟨⟨line, number⟩, hline, ⟨rfl, -, hstands⟩ | ⟨rfl, -, hstands⟩⟩
    all_goals exact ⟨line, hline, hstands⟩
  · rintro ⟨line, hline, hstands⟩
    refine ⟨(line, found.line), hline, ?_⟩
    cases hkind : found.key.isNumber with
    | false => exact Or.inl ⟨rfl, rfl, hstands⟩
    | true => exact Or.inr ⟨rfl, rfl, hstands⟩

/-- A literal is written in one way at a place. -/
theorem OccursAt.spelling_unique {snippet : Snippet} {key : Key} {spelling spelling' : List Char}
    {number column : Nat} (h : OccursAt snippet key spelling number column)
    (h' : OccursAt snippet key spelling' number column) : spelling = spelling' := by
  have hrecord : (⟨⟨key, spelling, number⟩, column⟩ : Placed) ∈ placed snippet :=
    mem_placed_iff.mpr h
  have hrecord' : (⟨⟨key, spelling', number⟩, column⟩ : Placed) ∈ placed snippet :=
    mem_placed_iff.mpr h'
  exact congrArg (·.spelling) (eq_of_rank_eq hrecord hrecord' rfl)

/-! ## Numbers that are cut -/

/-- Whether a text begins with a point and digits that run into a word. -/
def BeginsSuffixed (back : List Char) : Prop :=
  ∃ fraction c rest, back = '.' :: (fraction ++ c :: rest) ∧ IsDigits fraction ∧
    isDigit c = false ∧ Text.isWordChar c = true

/-- A point and a digit are the beginning of a fraction, unless the digits run into a word. -/
theorem beginsSuffixed_iff {d : Char} {rest : List Char} (hd : isDigit d = true) :
    BeginsSuffixed ('.' :: d :: rest) ↔ ¬ BeginsFraction ('.' :: d :: rest) := by
  obtain ⟨fraction, behind, hsplit, hrun⟩ := Text.exists_run isDigit (d :: rest)
  have hfraction : IsDigits fraction := by
    refine ⟨?_, hrun.all⟩
    rintro rfl
    rw [hrun.stops d (by rw [← List.nil_append behind, ← hsplit]; rfl)] at hd
    cases hd
  rw [hsplit]
  constructor
  · rintro ⟨digits, c, more, hsame, hdigits, hc, hword⟩ ⟨digits', more', hsame', hdigits', hmore'⟩
    have hstops : Run isDigit digits (c :: more) := ⟨hdigits.2, by simpa using hc⟩
    obtain ⟨-, rfl⟩ := hstops.unique (hdigits'.run hmore')
      (List.cons_inj_right '.' |>.mp (hsame.symm.trans hsame'))
    rw [touchesWord, hword] at hmore'
    cases hmore'
  · intro hnone
    cases hword : touchesWord behind with
    | false => exact absurd ⟨fraction, behind, rfl, hfraction, hword⟩ hnone
    | true =>
      cases behind with
      | nil => cases hword
      | cons c more => exact ⟨fraction, c, more, rfl, hfraction, hrun.stops c rfl, hword⟩

/-- **When a number is cut at its point.**  What stands in front of a point and a digit is
recorded as a number of its own if the digits behind the point run into a word, and if it
touches no word in front, is not itself a fraction, and is in no string. -/
theorem cut_number_recorded_iff (snippet : Snippet) :
    (placed snippet).map Placed.toOccurrence = occurrences snippet ∧
    ∀ line number, (line, number) ∈ snippet.numberedLines →
      ∀ front whole d rest, line = front ++ (whole ++ '.' :: d :: rest) → IsDigits whole →
        isDigit d = true →
        (⟨⟨.number whole, whole, number⟩, front.length⟩ ∈ placed snippet ↔
          BeginsSuffixed ('.' :: d :: rest) ∧ touchesWord front.reverse = false ∧
            Even (pointed front.reverse) ∧
            ¬ InString (quoteOf snippet.dialect) line front.length) := by
  refine ⟨map_toOccurrence_placed snippet, ?_⟩
  rintro line number hline front whole d rest rfl hwhole hd
  have hpoint : touchesWord ('.' :: d :: rest) = false := by
    show Text.isWordChar '.' = false
    decide
  rw [mem_placed_iff, beginsSuffixed_iff hd, ← hwhole.numeral_iff]
  constructor
  · rintro ⟨line', hline', hstands⟩
    rw [Snippet.line_unique hline' hline] at hstands
    cases hstands with
    | number hat houtside =>
      obtain ⟨hfront, -, hnumeral, heven⟩ := numberAt_append_iff.mp hat
      exact ⟨hnumeral, hfront, heven, houtside⟩
  · rintro ⟨hnumeral, hfront, heven, houtside⟩
    exact ⟨_, hline, .number (numberAt_append_iff.mpr ⟨hfront, hpoint, hnumeral, heven⟩) houtside⟩

/-- In `0.05m` the suffix makes the `0` a number of its own. -/
theorem cut_number_recorded_iff_in_price :
    let snippet : Snippet := ⟨"a = 0.05m;".toList, .csharp⟩
    (⟨⟨.number ['0'], ['0'], 1⟩, 4⟩ : Placed) ∈ placed snippet ∧
      BeginsSuffixed ".05m;".toList := by
  intro snippet
  have hrecord : (⟨⟨.number ['0'], ['0'], 1⟩, 4⟩ : Placed) ∈ placed snippet := by decide
  have hline : ("a = 0.05m;".toList, 1) ∈ snippet.numberedLines := by decide
  have hcut := (cut_number_recorded_iff snippet).2 _ 1 hline "a = ".toList ['0'] '0' "5m;".toList
    rfl ⟨List.cons_ne_nil _ _, List.forall_mem_singleton.mpr rfl⟩ rfl
  exact ⟨hrecord, (hcut.mp hrecord).1⟩

/-- **Three numbers that are counted as one**, each by its digits in front of the point. -/
theorem cut_numbers_counted_together :
    let snippet : Snippet := ⟨"a = 0.05m;\nb = 0.10m;\nc = 0.99m;".toList, .csharp⟩
    (placed snippet).map (fun found => (found.key, found.line, found.column)) =
        [(.number ['0'], 1, 4), (.number ['0'], 2, 4), (.number ['0'], 3, 4)] ∧
      snippet.lines.map (·.drop 4) = ["0.05m;".toList, "0.10m;".toList, "0.99m;".toList] ∧
      ((Rule.repeatedLiteral 3).check snippet).map (·.message) =
        ["Literal '0' appears 3 times."] := by
  decide

end Literal
end LineLint
