import LineLint.Code.Header.TransactSql
import LineLint.Intent
import LineLint.Proofs.Layout.LineTable
import LineLint.Proofs.Pattern.WholeWords

/-! # Routines and what is said about them

A routine begins with `CREATE`, perhaps `OR ALTER`, and the keyword of a routine
(`Code.TransactSql.RoutineHead`).  Two patterns look for it.  The one for headers reads a line and
takes `OR ALTER`; the one for the sentence about a text reads all of it at once and does not.

A head that stands in a line stands in the text, since no word reaches across the end of a line
(`Text.exists_cut_of_mem_lines`).  So a text with a routine header, and without any of the four
statement keywords, is said to define a routine exactly if some head in it does without `OR ALTER`,
and is said to execute a command otherwise (`Intent.describe_of_header`).
-/
namespace LineLint

open Cursor (touchesWord)
open Pattern

namespace Text

/-! ## Lines between word edges -/

theorem isGap_of_mem_terminators {ending : List Char} (h : ending ∈ terminators) :
    Pattern.IsGap ending := by
  have hall : ∀ ending ∈ terminators, Pattern.IsGap ending := by decide
  exact hall ending h

/-- **Around each line of a text** stand texts that touch no word of it. -/
theorem exists_cut_of_mem_lines {text line : List Char} (h : line ∈ lines text) :
    ∃ front back, text = front ++ (line ++ back) ∧ touchesWord front.reverse = false ∧
      touchesWord back = false := by
  obtain ⟨row, hrow, rfl⟩ := List.mem_map.mp h
  have htable := tabulated_rows text
  clear h
  generalize rows text = table at hrow htable
  induction htable with
  | last =>
    obtain rfl := List.mem_singleton.mp hrow
    exact ⟨[], [], by simp, rfl, rfl⟩
  | @cons line ending rest table _ hending _ _ ih =>
    rcases List.mem_cons.mp hrow with rfl | hrow
    · exact ⟨[], ending ++ rest, rfl, rfl, touchesWord_gap (isGap_of_mem_terminators hending) rest⟩
    · obtain ⟨front, back, rfl, hfront, hback⟩ := ih hrow
      refine ⟨line ++ (ending ++ front), back, by simp, ?_, hback⟩
      rw [List.reverse_append, List.reverse_append, List.append_assoc]
      exact touchesWord_append_eq_false hfront
        (touchesWord_reverse_gap (isGap_of_mem_terminators hending) _)

end Text

namespace Code
namespace TransactSql

/-! ## Heads of routines -/

/-- Whether a text is `OR ALTER` with white space behind both words, or nothing. -/
def IsAlteration (text : List Char) : Prop :=
  text = [] ∨ ∃ or gap alter spacing, text = or ++ (gap ++ (alter ++ spacing)) ∧
    Spells "OR" or ∧ IsGap gap ∧ Spells "ALTER" alter ∧ IsGap spacing

/-- How a routine begins: `CREATE`, perhaps `OR ALTER`, and the keyword of a routine. -/
structure RoutineHead where
  /-- `CREATE`. -/
  create : List Char
  /-- The white space behind it. -/
  gap : List Char
  /-- `OR ALTER` with the white space behind it, or nothing. -/
  alteration : List Char
  /-- The keyword of the routine. -/
  keyword : List Char
  spells_create : Spells "CREATE" create
  isGap_gap : IsGap gap
  isAlteration : IsAlteration alteration
  isRoutine : ∃ routine ∈ routineKeywords, Spells routine keyword

/-- The text of the head. -/
def RoutineHead.text (head : RoutineHead) : List Char :=
  head.create ++ (head.gap ++ (head.alteration ++ head.keyword))

/-- Whether a text holds the head, and no word of it goes on in front or behind. -/
def RoutineHead.StandsIn (head : RoutineHead) (text : List Char) : Prop :=
  ∃ front back, text = front ++ (head.text ++ back) ∧ touchesWord front.reverse = false ∧
    touchesWord back = false

variable {head : RoutineHead} {text line before after : List Char}
  {parts : List (Part × Cursor × Cursor)} {s : Reached}

theorem isLetters_of_mem_routineKeywords :
    ∀ keyword ∈ routineKeywords, IsLetters keyword := by decide

/-- A head that stands in a line stands in the text. -/
theorem RoutineHead.StandsIn.of_mem_lines (h : head.StandsIn line)
    (hline : line ∈ Text.lines text) : head.StandsIn text := by
  obtain ⟨front, back, rfl, hfront, hback⟩ := h
  obtain ⟨front', back', rfl, hfront', hback'⟩ := Text.exists_cut_of_mem_lines hline
  refine ⟨front' ++ front, back ++ back', by simp, ?_, touchesWord_append_eq_false hback hback'⟩
  rw [List.reverse_append]
  exact touchesWord_append_eq_false hfront hfront'

theorem RoutineHead.StandsIn.isBlank_eq_false (h : head.StandsIn text) :
    Text.isBlank text = false := by
  obtain ⟨front, back, rfl, -⟩ := h
  obtain ⟨c, hc⟩ := List.exists_mem_of_ne_nil _ (head.spells_create.ne_nil (by decide))
  have hsolid := isSpace_of_continuesIdentifier (head.spells_create.continues (by decide) c hc)
  exact List.all_eq_false.mpr ⟨c, by simp [RoutineHead.text, hc], by simp [hsolid]⟩

/-! ## What the patterns find -/

/-- `CREATE` with the white space behind it. -/
def createPattern : Pattern :=
  edge ++ word "CREATE" ++ gap

theorem mem_reach_createPattern (h : s ∈ createPattern.reach ⟨⟨before, after⟩, parts⟩) :
    ∃ create gap rest, Spells "CREATE" create ∧ IsGap gap ∧
      after = create ++ (gap ++ rest) ∧ touchesWord before = false ∧
      s = ⟨⟨gap.reverse ++ (create.reverse ++ before), rest⟩, parts⟩ := by
  obtain ⟨t, ht, hs⟩ := List.mem_flatMap.mp h
  obtain ⟨create, behind, hcreate, hbefore, rfl, rfl⟩ := mem_reach_edge_word (by decide) ht
  obtain ⟨gap, rest, hgap, -, rfl, rfl⟩ := mem_reach_gap hs
  exact ⟨create, gap, rest, hcreate, hgap, rfl, hbefore, rfl⟩

/-- What the optional words take is an alteration. -/
theorem mem_reach_alteration
    (h : s ∈ (optional (word "OR" ++ gap ++ word "ALTER" ++ gap)).reach ⟨⟨before, after⟩, parts⟩) :
    ∃ alteration rest, IsAlteration alteration ∧ after = alteration ++ rest ∧
      s = ⟨⟨alteration.reverse ++ before, rest⟩, parts⟩ := by
  rcases List.mem_append.mp h with h | h
  · obtain ⟨t, ht, hs⟩ := List.mem_flatMap.mp h
    obtain ⟨u, hu, ht⟩ := List.mem_flatMap.mp ht
    obtain ⟨v, hv, hu⟩ := List.mem_flatMap.mp hu
    obtain ⟨or, behind, hor, rfl, rfl⟩ := mem_reach_word hv
    obtain ⟨gap, behind, hgap, -, rfl, rfl⟩ := mem_reach_gap hu
    obtain ⟨alter, behind, halter, rfl, rfl⟩ := mem_reach_word ht
    obtain ⟨spacing, rest, hspacing, -, rfl, rfl⟩ := mem_reach_gap hs
    refine ⟨or ++ (gap ++ (alter ++ spacing)), rest,
      Or.inr ⟨or, gap, alter, spacing, rfl, hor, hgap, halter, hspacing⟩, by simp, by simp⟩
  · exact ⟨[], after, Or.inl rfl, rfl, List.mem_singleton.mp h⟩

/-- The pattern for headers up to the white space behind the keyword. -/
def headPattern : Pattern :=
  createPattern ++ optional (word "OR" ++ gap ++ word "ALTER" ++ gap) ++ words routineKeywords ++
    gap

/-- What a header says behind the white space does not matter for its head. -/
theorem exists_mem_reach_headPattern {r : Reached} (h : s ∈ procedurePattern.reach r) :
    ∃ t, t ∈ headPattern.reach r := by
  obtain ⟨t, ht, -⟩ := List.mem_flatMap.mp h
  obtain ⟨t, ht, -⟩ := List.mem_flatMap.mp ht
  obtain ⟨t, ht, -⟩ := List.mem_flatMap.mp ht
  obtain ⟨t, ht, -⟩ := List.mem_flatMap.mp ht
  exact ⟨t, ht⟩

/-- **A header begins with a head.** -/
theorem exists_head_of_procedureHeader? (h : (procedureHeader? line).isSome = true) :
    ∃ head : RoutineHead, head.StandsIn line := by
  rw [procedureHeader?, Option.isSome_map] at h
  obtain ⟨front, after, rfl, s, hs⟩ := occursIn_iff.mp h
  obtain ⟨t, ht⟩ := exists_mem_reach_headPattern hs
  obtain ⟨u, hu, ht⟩ := List.mem_flatMap.mp ht
  obtain ⟨v, hv, hu⟩ := List.mem_flatMap.mp hu
  obtain ⟨w, hw, hv⟩ := List.mem_flatMap.mp hv
  obtain ⟨create, gap, behind, hcreate, hgap, rfl, hfront, rfl⟩ := mem_reach_createPattern hw
  obtain ⟨alteration, behind, halteration, rfl, rfl⟩ := mem_reach_alteration hv
  obtain ⟨keyword, behind, hkeyword, rfl, rfl⟩ := exists_spells_of_mem_reach_words hu
  obtain ⟨spacing, rest, hspacing, -, rfl, -⟩ := mem_reach_gap ht
  exact ⟨⟨create, gap, alteration, keyword, hcreate, hgap, halteration, hkeyword⟩, front,
    spacing ++ rest, by simp [RoutineHead.text], hfront, touchesWord_gap hspacing rest⟩

end TransactSql
end Code

namespace Intent

open Code.TransactSql

/-- **The pattern for sentences finds the heads without `OR ALTER`.** -/
theorem occursIn_createRoutinePattern_iff {text : List Char} :
    createRoutinePattern.occursIn text = true ↔
      ∃ head : RoutineHead, head.alteration = [] ∧ head.StandsIn text := by
  rw [occursIn_iff]
  constructor
  · rintro ⟨front, after, rfl, s, hs⟩
    obtain ⟨create, gap, keyword, back, rfl, hpair, -⟩ :=
      (mem_reach_wordPair_iff (by decide) isLetters_of_mem_routineKeywords).mp hs
    exact ⟨⟨create, gap, [], keyword, hpair.spells, hpair.isGap, Or.inl rfl, hpair.isName⟩, rfl,
      front, back, by simp [RoutineHead.text], hpair.starts, hpair.ends⟩
  · rintro ⟨head, hplain, front, back, rfl, hfront, hback⟩
    have hpair : IsWordPair "CREATE" routineKeywords front.reverse head.create head.gap
        head.keyword back :=
      ⟨head.spells_create, head.isGap_gap, head.isRoutine, hfront, hback⟩
    exact ⟨front, head.create ++ (head.gap ++ (head.keyword ++ back)),
      by simp [RoutineHead.text, hplain], _, (mem_reach_wordPair_iff (by decide)
        isLetters_of_mem_routineKeywords).mpr ⟨_, _, _, _, rfl, hpair, rfl⟩⟩

/-! ## What is said about routines -/

/-- The keywords of statements that come before routines. -/
def statementKeywords : List String :=
  ["SELECT", "INSERT", "UPDATE", "DELETE"]

/-- Without any of these keywords, only the heads of routines are looked for. -/
theorem ofSql_of_quiet {text : List Char} (h : ∀ keyword ∈ statementKeywords,
    Text.contains (Text.upper text) keyword.toList = false) :
    ofSql text = if createRoutinePattern.occursIn text then
      "Defines stored procedure/function.".toList else "Executes SQL command.".toList := by
  rw [ofSql]
  simp only [h "SELECT" (by decide), h "INSERT" (by decide), h "UPDATE" (by decide),
    h "DELETE" (by decide), Bool.false_eq_true, if_false]

/-- **What is said about a text with the header of a routine.**  If the text holds none of the
keywords of statements, it is said to define a routine exactly if a head without `OR ALTER` stands
in it, and it is said to execute a command exactly if all heads have `OR ALTER`.  The header begins
with one of these heads. -/
theorem describe_of_header {text line : List Char} (hline : line ∈ Text.lines text)
    (hheader : (procedureHeader? line).isSome = true)
    (hquiet : ∀ keyword ∈ statementKeywords,
      Text.contains (Text.upper text) keyword.toList = false) :
    (describe ⟨text, .sql⟩ = "Defines stored procedure/function.".toList ↔
        ∃ head : RoutineHead, head.alteration = [] ∧ head.StandsIn text) ∧
      (describe ⟨text, .sql⟩ = "Executes SQL command.".toList ↔
        ∀ head : RoutineHead, head.StandsIn text → head.alteration ≠ []) ∧
      ∃ head : RoutineHead, head.StandsIn line ∧ head.StandsIn text := by
  obtain ⟨head, hhead⟩ := exists_head_of_procedureHeader? hheader
  have hstands := hhead.of_mem_lines hline
  have hdescribe : describe ⟨text, .sql⟩ = if createRoutinePattern.occursIn text then
      "Defines stored procedure/function.".toList else "Executes SQL command.".toList := by
    rw [describe, Snippet.isBlank, hstands.isBlank_eq_false]
    exact ofSql_of_quiet hquiet
  refine ⟨?_, ?_, head, hhead, hstands⟩
  · rw [hdescribe, ← occursIn_createRoutinePattern_iff]
    cases createRoutinePattern.occursIn text with
    | true => exact iff_of_true rfl rfl
    | false => exact iff_of_false (by decide) (by decide)
  · have hall : (∀ head : RoutineHead, head.StandsIn text → head.alteration ≠ []) ↔
        ¬ createRoutinePattern.occursIn text = true := by
      rw [occursIn_createRoutinePattern_iff]
      exact ⟨fun hall ⟨head, hplain, hstands⟩ => hall head hstands hplain,
        fun hnone head hstands hplain => hnone ⟨head, hplain, hstands⟩⟩
    rw [hdescribe, hall]
    cases createRoutinePattern.occursIn text with
    | true => exact iff_of_false (by decide) (by decide)
    | false => exact iff_of_true rfl (by decide)

/-- Two heads stand in this text, and the second one does without `OR ALTER`. -/
theorem describe_of_header_of_two_heads :
    let text := "create or alter proc p\nas exec q\r\n  Create\tFUNCTION [dbo].f(@a int)".toList
    let line := "create or alter proc p".toList
    line ∈ Text.lines text ∧ (procedureHeader? line).isSome = true ∧
      (∀ keyword ∈ statementKeywords,
        Text.contains (Text.upper text) keyword.toList = false) ∧
      describe ⟨text, .sql⟩ = "Defines stored procedure/function.".toList := by
  intro text line
  have hline : line ∈ Text.lines text := by decide +kernel
  have hheader : (procedureHeader? line).isSome = true := by decide +kernel
  have hquiet : ∀ keyword ∈ statementKeywords,
      Text.contains (Text.upper text) keyword.toList = false := by decide +kernel
  refine ⟨hline, hheader, hquiet, (describe_of_header hline hheader hquiet).1.mpr ?_⟩
  refine ⟨⟨"Create".toList, "\t".toList, [], "FUNCTION".toList, by decide, by decide, Or.inl rfl,
    "FUNCTION", by decide, by decide⟩, rfl, "create or alter proc p\nas exec q\r\n  ".toList,
    " [dbo].f(@a int)".toList, by decide, by decide, by decide⟩

/-- **A routine that is created or altered is not said to be one**, though it has a header. -/
theorem describe_of_altered_routine :
    let text := "CREATE OR ALTER PROCEDURE p AS".toList
    (∃ line ∈ Text.lines text, (procedureHeader? line).isSome = true) ∧
      (∀ keyword ∈ statementKeywords,
        Text.contains (Text.upper text) keyword.toList = false) ∧
      describe ⟨text, .sql⟩ ≠ "Defines stored procedure/function.".toList ∧
      describe ⟨text, .sql⟩ = "Executes SQL command.".toList := by
  decide +kernel

end Intent
end LineLint
