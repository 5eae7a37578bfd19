import LineLint.Proofs.Layout.Rules
import LineLint.Rule.Naming

/-! # Names on indented lines

A line declares the same names and the same loop counter however far it is
indented.  The suggestion for a name is chosen by the text as a whole, from words
that lie within lines.  So the check of names ignores the layout.
-/
namespace LineLint

open Text (IndentBlind)

namespace Naming

open Code Pattern

/-! ## Names on a line -/

theorem indentBlind_csharpNames : IndentBlind csharpNames := by
  intro c line hc
  rw [csharpNames, codeOnly_cons_space (by decide) hc, CSharp.indentBlind_methodHeaders c _ hc,
    allMatches_cons_space (by decide) (by decide) hc, List.filter_map,
    CSharp.declares_comp_behind, List.map_map, csharpNames]
  simp only [Function.comp_def, Match.part_behind]

theorem indentBlind_csharpCounter? : IndentBlind csharpCounter? := by
  intro c line hc
  rw [csharpCounter?, find?_cons_space (by decide) (by decide) hc, csharpCounter?]
  cases forPattern.find? line with
  | none => rfl
  | some head => simp only [Option.map_some, Match.part_behind]

theorem indentBlind_vbnetNames : IndentBlind vbnetNames := by
  intro c line hc
  rw [vbnetNames, codeOnly_cons_space (by decide) hc,
    VisualBasic.indentBlind_procedureHeader? c _ hc,
    allMatches_cons_space (by decide) (by decide) hc, List.map_map, vbnetNames]
  simp only [Function.comp_def, Match.part_behind]

theorem indentBlind_vbnetCounter? : IndentBlind vbnetCounter? := by
  intro c line hc
  rw [vbnetCounter?, find?_cons_space (by decide) (by decide) hc, vbnetCounter?]
  cases forToPattern.find? line with
  | none => rfl
  | some m => simp only [Option.map_some, Match.part_behind]

theorem indentBlind_aliases : IndentBlind aliases := by
  intro c code hc
  rw [aliases, allMatches_cons_space (by decide) (by decide) hc,
    allMatches_cons_space (by decide) (by decide) hc, ← List.map_append,
    List.map_map, aliases]
  simp only [Function.comp_def, Match.part_behind]

theorem indentBlind_sqlNames : IndentBlind sqlNames := by
  intro c line hc
  rw [sqlNames, Text.beforeFirst_cons_space (by decide) hc, indentBlind_aliases c _ hc,
    TransactSql.indentBlind_procedureHeader? c _ hc, sqlNames]

theorem indentBlind_lineNames (dialect : Dialect) : IndentBlind (lineNames dialect) := by
  cases dialect with
  | csharp => exact indentBlind_csharpNames
  | vbnet => exact indentBlind_vbnetNames
  | sql => exact indentBlind_sqlNames
  | unknown => exact fun _ _ _ => rfl

theorem indentBlind_lineCounter? (dialect : Dialect) : IndentBlind (lineCounter? dialect) := by
  cases dialect with
  | csharp => exact indentBlind_csharpCounter?
  | vbnet => exact indentBlind_vbnetCounter?
  | sql | unknown => exact fun _ _ _ => rfl

/-! ## Names in a snippet -/

variable {s t : Snippet}

theorem foundIn_congr (h : s.Alike t) : foundIn s = foundIn t := by
  simp only [foundIn, h.dialect]
  refine h.flatMap_numberedLines ?_
  intro number c line hc
  simp only [indentBlind_lineNames t.dialect c line hc]

theorem countersOf_congr (h : s.Alike t) : countersOf s = countersOf t := by
  rw [countersOf, countersOf, h.dialect]
  refine h.congr_lines (f := List.filterMap (lineCounter? t.dialect)) ?_
  intro lines
  rw [List.filterMap_map]
  congr 1
  exact funext (indentBlind_lineCounter? t.dialect).trimStart

theorem suggestion_congr (h : s.Alike t) : suggestion s = suggestion t := by
  have hcontains : ∀ needle : List Char, Text.isInline (Text.lower needle) = true →
      s.containsIgnoringCase needle = t.containsIgnoringCase needle :=
    fun _ hneedle => (Text.lineWise_contains_lower hneedle).congr h.text
  have hloan : LoanTerms.mentionedIn s.text = LoanTerms.mentionedIn t.text :=
    LoanTerms.lineWise_mentionedIn.congr h.text
  simp only [suggestion, h.dialect, hcontains "INSERT".toList (by decide),
    hcontains "UPDATE".toList (by decide), hloan]

end Naming

namespace Rule

theorem ignoresLayout_nonDescriptiveNames : nonDescriptiveNames.IgnoresLayout := by
  intro s t h
  simp only [nonDescriptiveNames, Naming.foundIn_congr h, Naming.countersOf_congr h,
    Naming.suggestion_congr h]

end Rule
end LineLint
