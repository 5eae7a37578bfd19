import LineLint.Proofs.Block.Layout
import LineLint.Proofs.Unbroken.Parts
import LineLint.Rule.Naming
import LineLint.Rule.RepeatedLiteral
import LineLint.Rule.Structure

/-!
# Names are made of their lines

Whatever a message quotes is read from one line: the name in a header or of a
block, a name that is declared on the line, a literal.  Comments and the contents
of strings may have been taken out of the line before, which adds nothing to it.
So all that is quoted is made of characters of that line (`⊆`).
-/
namespace LineLint

namespace Text

theorem beforeFirst_subset (marker text : List Char) : beforeFirst marker text ⊆ text := by
  induction text with
  | nil => exact List.Subset.refl _
  | cons c rest ih =>
    rw [beforeFirst]
    split
    · exact List.nil_subset _
    · exact List.cons_subset_cons c ih

end Text

namespace Code

theorem dropContents_subset (inString : Bool) (line : List Char) :
    dropContents inString line ⊆ line := by
  induction line generalizing inString with
  | nil => exact List.Subset.refl _
  | cons c rest ih =>
    rw [dropContents]
    split
    · exact List.cons_subset_cons c (ih _)
    · split
      · exact List.Subset.trans (ih true) (List.subset_cons_self c rest)
      · exact List.cons_subset_cons c (ih false)

theorem stripComment_subset (line marker : List Char) : stripComment line marker ⊆ line :=
  List.IsPrefix.subset <| stripComment_prefix line marker

theorem codeOnly_subset (line marker : List Char) : codeOnly line marker ⊆ line :=
  List.Subset.trans (stripComment_subset (blankStrings line) marker) (dropContents_subset false line)

/-! ## Headers and blocks -/

namespace CSharp

theorem name_subset_of_mem_methodHeaders {line : List Char} {header : Header}
    (h : header ∈ methodHeaders line) : header.name ⊆ line := by
  obtain ⟨m, hm, rfl⟩ := List.mem_map.mp h
  have hfound := Pattern.found_of_mem_allMatches (List.mem_filter.mp hm).1
  rw [headerOf]
  split <;> exact hfound.part_subset .name

theorem name_subset_of_methodHeader? {line : List Char} {header : Header}
    (h : methodHeader? line = some header) : header.name ⊆ line :=
  name_subset_of_mem_methodHeaders (List.mem_of_mem_head? h)

theorem subset_of_className? {line name : List Char} (h : className? line = some name) :
    name ⊆ line := by
  obtain ⟨m, hm, rfl⟩ := Option.map_eq_some_iff.mp h
  exact (Pattern.found_of_find? hm).part_subset .name

end CSharp

namespace VisualBasic

theorem name_subset_of_procedureHeader? {line : List Char} {found : ProcedureKind × Header}
    (h : procedureHeader? line = some found) : found.2.name ⊆ line := by
  obtain ⟨m, hm, rfl⟩ := Option.map_eq_some_iff.mp h
  exact (Pattern.found_of_find? hm).part_subset .name

theorem subset_of_className? {line name : List Char} (h : className? line = some name) :
    name ⊆ line := by
  rw [className?] at h
  split at h
  · next m hm =>
    split at h
    · obtain rfl := Option.some.inj h
      exact (Pattern.found_of_find? hm).part_subset .name
    · cases h
  · cases h

end VisualBasic

theorem TransactSql.name_subset_of_procedureHeader? {line : List Char} {header : Header}
    (h : procedureHeader? line = some header) : header.name ⊆ line := by
  obtain ⟨m, hm, rfl⟩ := Option.map_eq_some_iff.mp h
  exact (Pattern.found_of_find? hm).part_subset .name

namespace BlockKind

/-- A header line holds the name that it declares. -/
theorem Declares.subset {kind : BlockKind} {line name : List Char} (h : kind.Declares line name) :
    name ⊆ line := by
  cases kind with
  | csharpMethod =>
    obtain ⟨header, hheader, -, rfl⟩ := h
    exact List.Subset.trans (CSharp.name_subset_of_methodHeader? hheader)
      (stripComment_subset line _)
  | csharpClass => exact List.Subset.trans (CSharp.subset_of_className? h) (stripComment_subset line _)
  | vbnetProcedure =>
    obtain ⟨_, header, hheader, -, rfl⟩ := h
    exact VisualBasic.name_subset_of_procedureHeader? hheader
  | vbnetClass => exact VisualBasic.subset_of_className? h
  | sqlProcedure =>
    obtain ⟨header, hheader, rfl⟩ := h
    exact TransactSql.name_subset_of_procedureHeader? hheader

/-- The name of a block stands on one of the lines. -/
theorem exists_name_subset (kind : BlockKind) {lines : List (List Char)} {block : Block}
    (h : block ∈ kind.blocks lines) : ∃ line ∈ lines, block.name ⊆ line := by
  obtain ⟨-, -, hheader, -⟩ := kind.blocks_layout lines
  obtain ⟨line, hline, hdeclares⟩ := hheader block h
  exact ⟨line, List.mem_of_getElem? hline, hdeclares.subset⟩

end BlockKind
end Code

/-! ## Names and literals of a line -/

namespace Naming

open Code

theorem subset_of_mem_csharpNames {line : List Char} {named : List Char × Role}
    (h : named ∈ csharpNames line) : named.1 ⊆ line := by
  refine List.Subset.trans ?_ (codeOnly_subset line CSharp.commentMarker)
  rcases List.mem_append.mp h with h | h
  · obtain ⟨header, hheader, rfl⟩ := List.mem_map.mp h
    exact CSharp.name_subset_of_mem_methodHeaders hheader
  · obtain ⟨m, hm, rfl⟩ := List.mem_map.mp h
    exact (Pattern.found_of_mem_allMatches (List.mem_filter.mp hm).1).part_subset .name

theorem subset_of_mem_vbnetNames {line : List Char} {named : List Char × Role}
    (h : named ∈ vbnetNames line) : named.1 ⊆ line := by
  refine List.Subset.trans ?_ (codeOnly_subset line VisualBasic.commentMarker)
  rcases List.mem_append.mp h with h | h
  · obtain ⟨header, hheader, rfl⟩ := List.mem_map.mp h
    exact VisualBasic.name_subset_of_procedureHeader? (Option.mem_toList.mp hheader)
  · obtain ⟨m, hm, rfl⟩ := List.mem_map.mp h
    exact (Pattern.found_of_mem_allMatches hm).part_subset .name

theorem mem_of_mem_dedupIgnoringCase {seen names : List (List Char)} {name : List Char}
    (h : name ∈ dedupIgnoringCase seen names) : name ∈ names := by
  induction names generalizing seen with
  | nil => exact h
  | cons first names ih =>
    rw [dedupIgnoringCase] at h
    split at h
    · exact List.mem_cons_of_mem _ (ih h)
    · rcases List.mem_cons.mp h with rfl | h
      · exact List.mem_cons_self
      · exact List.mem_cons_of_mem _ (ih h)

theorem subset_of_mem_aliases {code name : List Char} (h : name ∈ aliases code) :
    name ⊆ code := by
  have hname := (List.mem_filter.mp (mem_of_mem_dedupIgnoringCase h)).1
  obtain ⟨m, hm, rfl⟩ := List.mem_map.mp hname
  rcases List.mem_append.mp hm with hm | hm <;>
    exact (Pattern.found_of_mem_allMatches hm).part_subset .name

theorem subset_of_mem_sqlNames {line : List Char} {named : List Char × Role}
    (h : named ∈ sqlNames line) : named.1 ⊆ line := by
  refine List.Subset.trans ?_ (Text.beforeFirst_subset TransactSql.commentMarker line)
  rcases List.mem_append.mp h with h | h
  · obtain ⟨name, hname, rfl⟩ := List.mem_map.mp h
    exact subset_of_mem_aliases hname
  · obtain ⟨header, hheader, rfl⟩ := List.mem_map.mp h
    exact TransactSql.name_subset_of_procedureHeader? (Option.mem_toList.mp hheader)

/-- A name is made of the line on which it is found. -/
theorem subset_of_mem_lineNames {dialect : Dialect} {line : List Char}
    {named : List Char × Role} (h : named ∈ lineNames dialect line) : named.1 ⊆ line := by
  cases dialect with
  | csharp => exact subset_of_mem_csharpNames h
  | vbnet => exact subset_of_mem_vbnetNames h
  | sql => exact subset_of_mem_sqlNames h
  | unknown => cases h

end Naming

/-- A literal is made of the line on which it stands. -/
theorem Literal.subset_of_mem_onLine {quote : Char} {line : List Char}
    {literal : Key × List Char} (h : literal ∈ onLine quote line) : literal.2 ⊆ line := by
  rcases List.mem_append.mp h with h | h
  · obtain ⟨contents, hcontents, rfl⟩ := List.mem_map.mp h
    obtain ⟨m, hm, rfl⟩ := List.mem_map.mp (List.mem_filter.mp hcontents).1
    exact (Pattern.found_of_mem_allMatches hm).part_subset .content
  · obtain ⟨m, hm, rfl⟩ := List.mem_map.mp h
    exact (Pattern.found_of_mem_allMatches (List.mem_filter.mp hm).1).text_subset

end LineLint
