import LineLint.Code.Nesting
import LineLint.Proofs.Layout.Patterns

/-! # Indented headers

White space in front of a line does not change what the line declares, closes,
separates and counts, in any of the three languages.  A comment is cut off behind
it, so this holds of lines without their comments too.
-/
namespace LineLint
namespace Code

open Text (IndentBlind isSpace)

/-- What is found on a line without its comment is found in the indented line too. -/
theorem indentBlind_stripComment {α : Type} {f : List Char → α} (hf : IndentBlind f)
    {marker : List Char} (hm : Text.startsSolid marker = true) :
    IndentBlind fun line => f (stripComment line marker) := by
  intro c line hc
  simp only [stripComment_cons_space hm hc]
  exact hf c _ hc

/-! ## C# -/

namespace CSharp

theorem headerOf_behind {c : Char} (hc : isSpace c = true) (line : List Char) (m : Match) :
    headerOf (c :: line) (m.behind c) = headerOf line m := by
  have hbrace : (c :: line).contains '{' = line.contains '{' := by
    have hne : ('{' == c) = false :=
      beq_eq_false_iff_ne.mpr (Text.ne_of_isSpace hc (by decide)).symm
    rw [List.contains_cons, hne, Bool.false_or]
  simp only [headerOf, Match.rest_behind, Match.part_behind, hbrace]

theorem declares_comp_behind (c : Char) : declares ∘ Match.behind c = declares := by
  funext m
  simp only [Function.comp_apply, declares, Match.part_behind]

theorem indentBlind_methodHeaders : IndentBlind methodHeaders := by
  intro c line hc
  rw [methodHeaders, Pattern.allMatches_cons_space (by decide) (by decide) hc,
    List.filter_map, declares_comp_behind, List.map_map]
  exact List.map_congr_left fun m _ => headerOf_behind hc line m

theorem indentBlind_methodHeader? : IndentBlind methodHeader? :=
  indentBlind_methodHeaders.comp List.head?

theorem indentBlind_codeHeader? : IndentBlind codeHeader? :=
  indentBlind_stripComment indentBlind_methodHeader? (by decide)

theorem indentBlind_className? : IndentBlind className? := by
  intro c line hc
  rw [className?, Pattern.find?_cons_space (by decide) (by decide) hc,
    Option.map_map, className?]
  exact Option.map_congr fun m _ => m.part_behind c .name

end CSharp

/-! ## VB.NET -/

namespace VisualBasic

theorem indentBlind_procedureHeader? : IndentBlind procedureHeader? := by
  intro c line hc
  rw [procedureHeader?, Pattern.find?_cons_of_isAnchored (by decide) hc, Option.map_map,
    procedureHeader?]
  refine Option.map_congr fun m _ => ?_
  simp only [Function.comp_apply, Match.part_indent, Match.part?_indent]

theorem indentBlind_bodyHeader? : IndentBlind bodyHeader? := by
  intro c line hc
  rw [bodyHeader?, indentBlind_procedureHeader? c line hc, bodyHeader?]

theorem indentBlind_className? : IndentBlind className? := by
  intro c line hc
  rw [className?, Pattern.find?_cons_of_isAnchored (by decide) hc, className?]
  cases classPattern.find? line with
  | none => rfl
  | some m => simp only [Option.map_some, Match.part_indent]

theorem indentBlind_procedureEnd? : IndentBlind procedureEnd? := by
  intro c line hc
  rw [procedureEnd?, Pattern.find?_cons_of_isAnchored (by decide) hc, Option.map_map,
    procedureEnd?]
  refine Option.map_congr fun m _ => ?_
  simp only [Function.comp_apply, Match.part_indent]

theorem indentBlind_endsClass : IndentBlind endsClass :=
  Pattern.indentBlind_occursIn_of_isAnchored (by decide)

theorem indentBlind_isCommentLine : IndentBlind isCommentLine := by
  intro c line hc
  rw [isCommentLine, Text.indentBlind_trimStart c line hc, isCommentLine]

theorem indentBlind_opensBlock : IndentBlind opensBlock := by
  intro c code hc
  rw [opensBlock, indentBlind_bodyHeader? c code hc,
    Pattern.indentBlind_occursIn_of_isAnchored (by decide) c code hc,
    Pattern.indentBlind_occursIn_of_isAnchored (by decide) c code hc, opensBlock]

theorem indentBlind_delta : IndentBlind delta := by
  intro c line hc
  have hend : IndentBlind fun line =>
      blockEndPattern.occursIn (stripComment line commentMarker) :=
    indentBlind_stripComment
      (Pattern.indentBlind_occursIn_of_isAnchored (by decide)) (by decide)
  have hopen : IndentBlind fun line => opensBlock (stripComment line commentMarker) :=
    indentBlind_stripComment indentBlind_opensBlock (by decide)
  simp only [delta, indentBlind_isCommentLine c line hc, hend c line hc, hopen c line hc]

end VisualBasic

/-! ## T-SQL -/

namespace TransactSql

theorem indentBlind_procedureHeader? : IndentBlind procedureHeader? := by
  intro c line hc
  rw [procedureHeader?, Pattern.find?_cons_space (by decide) (by decide) hc,
    Option.map_map, procedureHeader?]
  refine Option.map_congr fun m _ => ?_
  simp only [Function.comp_apply, Match.part_behind, Match.rest_behind]

theorem indentBlind_isBatchSeparator : IndentBlind isBatchSeparator :=
  Pattern.indentBlind_occursIn_of_isAnchored (by decide)

theorem indentBlind_delta : IndentBlind delta := by
  intro c line hc
  rw [delta, Pattern.indentBlind_count (by decide) (by decide) c line hc,
    Pattern.indentBlind_count (by decide) (by decide) c line hc,
    Pattern.indentBlind_count (by decide) (by decide) c line hc, delta]

end TransactSql
end Code
end LineLint
