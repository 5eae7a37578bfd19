import LineLint.Proofs.Alias.Links

/-! # Aliases of one letter

An alias of one letter is too short, and none of the words that are no aliases has one letter
only.  So such an alias is reported if its reference is examined, or if it stands behind an `AS`
(`Rule.short_table_aliases`).

It is missed without an `AS` where an earlier reference takes the keyword: in `FROM a JOIN b x`
the word behind the table `a` is `JOIN`, which is no alias, but the sweep goes on behind it
(`Rule.short_table_alias_behind_join`).
-/
namespace LineLint
namespace Naming

open Pattern
open Cursor (touchesWord)

/-! ## Names that are kept -/

/-- Of each name there is one that is kept, or has been seen. -/
theorem exists_mem_dedupIgnoringCase {names : List (List Char)} {name : List Char}
    (h : name ∈ names) (seen : List (List Char)) :
    ∃ other ∈ seen ++ dedupIgnoringCase seen names, Text.sameIgnoringCase other name = true := by
  fun_induction dedupIgnoringCase seen names with
  | case1 => cases h
  | case2 seen first names hseen ih =>
    rcases List.mem_cons.mp h with rfl | h
    · obtain ⟨other, hother, hsame⟩ := List.any_eq_true.mp hseen
      exact ⟨other, List.mem_append_left _ hother, hsame⟩
    · exact ih h
  | case3 seen first names hseen ih =>
    rcases List.mem_cons.mp h with rfl | h
    · exact ⟨name, by simp, by simp [Text.sameIgnoringCase]⟩
    · obtain ⟨other, hother, hsame⟩ := ih h
      refine ⟨other, ?_, hsame⟩
      simpa [or_left_comm] using hother

/-- A single letter is none of the words that are no aliases. -/
theorem isNonAlias_singleton (c : Char) : isNonAlias [c] = false := by
  have hlong : ∀ other ∈ nonAliases, other.toList.length ≠ 1 := by decide
  refine List.any_eq_false.mpr fun other hother hsame => hlong other hother ?_
  have hlength := congrArg List.length ((Text.sameIgnoringCase_iff _ _).mp hsame)
  rwa [Text.length_asciiLower, Text.length_asciiLower] at hlength

theorem exists_eq_singleton {other : List Char} {c : Char}
    (h : Text.sameIgnoringCase other [c] = true) : ∃ d, other = [d] ∧ d.toLower = c.toLower := by
  have hsame := (Text.sameIgnoringCase_iff _ _).mp h
  have hlength := congrArg List.length hsame
  rw [Text.length_asciiLower, Text.length_asciiLower] at hlength
  obtain ⟨d, rfl⟩ := List.length_eq_one_iff.mp hlength
  exact ⟨d, rfl, by simpa [Text.asciiLower] using hsame⟩

/-- A single letter is too short for a variable. -/
theorem shortVariable_mem_faults {c d : Char} (hc : startsIdentifier c = true)
    (hsame : d.toLower = c.toLower) : Fault.shortVariable ∈ faults [d] .variable false := by
  have hdigit : d.isDigit = false := by
    rw [← Text.caseBlind_ascii_isDigit d, hsame, Text.caseBlind_ascii_isDigit c,
      isDigit_of_startsIdentifier hc]
  simp [faults, startsWithDigit, hdigit]

/-- What is reported of a variable that is too short. -/
theorem exists_issue_of_shortVariable {name : List Char}
    (h : Fault.shortVariable ∈ faults name .variable false) (advice : String) (number : Nat) :
    ∃ issue ∈ issuesFor [] advice ⟨number, name, .variable⟩, issue.line = some number ∧
      issue.message = "Variable name '" ++ String.ofList name ++ "' is too short." :=
  ⟨_, List.mem_map_of_mem h, rfl, rfl⟩

/-- The link of a reference is an `AS` with the name behind it. -/
theorem TableReference.exists_linkedName (ref : TableReference) (h : ref.link ≠ []) :
    ∃ linked : LinkedName, linked.text = ref.link ++ ref.name ∧ linked.name = ref.name := by
  obtain ⟨word, gap, hlink, hspells, hgap⟩ := ref.isLink.resolve_left h
  exact ⟨⟨word, gap, ref.name, hspells, hgap, ref.isIdentifier_name⟩,
    by simp [LinkedName.text, hlink], rfl⟩

/-- The white space behind a table touches no word. -/
theorem TableReference.setApart_lead (ref : TableReference) {front back : List Char}
    (h : SetApart front back) : SetApart (front ++ ref.lead) back := by
  refine ⟨?_, h.back⟩
  obtain ⟨spacing, last, hspacing⟩ :=
    (List.eq_nil_or_concat' ref.spacing).resolve_left ref.isGap_spacing.1
  have hspace := ref.isGap_spacing.2 last (by simp [hspacing])
  simp [lead, hspacing, touchesWord, (Text.plain_of_isSpace hspace).word]

end Naming

theorem Text.beforeFirst_of_contains {text marker : List Char} (h : contains text marker = false) :
    beforeFirst marker text = text := by
  induction text with
  | nil => rfl
  | cons c text ih =>
    obtain ⟨hhere, hrest⟩ := Bool.or_eq_false_iff.mp h
    rw [beforeFirst, hhere, ih hrest]
    rfl

namespace Rule

open Naming Pattern

/-! ## Names that are reported -/

/-- Whether a name is reported as too short for a variable on a line, in some case. -/
def ReportsShort (snippet : Snippet) (number : Nat) (name : List Char) : Prop :=
  ∃ issue ∈ nonDescriptiveNames.check snippet, issue.line = some number ∧
    ∃ other, Text.sameIgnoringCase other name = true ∧
      issue.message = "Variable name '" ++ String.ofList other ++ "' is too short."

variable {snippet : Snippet} {line : List Char} {number : Nat} {ref : TableReference}
  {front back : List Char} {c : Char}

/-- **A name of one letter is reported if a pattern for aliases finds it.** -/
theorem reportsShort_of_mem (hsql : snippet.dialect = .sql)
    (hline : (line, number) ∈ snippet.numberedLines)
    (hcode : Text.contains line Code.TransactSql.commentMarker = false) {m : Match}
    (hm : m ∈ tableAliasPattern.allMatches line ++ asAliasPattern.allMatches line)
    (hname : m.part .name = [c]) (hstarts : startsIdentifier c = true) :
    ReportsShort snippet number [c] := by
  have hfound : [c] ∈ ((tableAliasPattern.allMatches line ++ asAliasPattern.allMatches line).map
      fun m => m.part .name).filter fun name => !isNonAlias name := by
    refine List.mem_filter.mpr ⟨List.mem_map.mpr ⟨m, hm, hname⟩, ?_⟩
    rw [isNonAlias_singleton]
    rfl
  obtain ⟨other, hother, hsame⟩ := exists_mem_dedupIgnoringCase hfound []
  obtain ⟨d, rfl, hd⟩ := exists_eq_singleton hsame
  have hnames : ([d], Role.variable) ∈ sqlNames line := by
    rw [sqlNames, Text.beforeFirst_of_contains hcode]
    exact List.mem_append_left _ (List.mem_map_of_mem hother)
  have hin : (⟨number, [d], .variable⟩ : Naming.Found) ∈ foundIn snippet := by
    refine List.mem_flatMap.mpr ⟨_, hline, List.mem_map.mpr ⟨([d], .variable), ?_, rfl⟩⟩
    rw [hsql]
    exact hnames
  have hcounters : countersOf snippet = [] := by
    rw [countersOf, hsql]
    exact List.filterMap_eq_nil_iff.mpr fun _ _ => rfl
  obtain ⟨issue, hissue, hnumber, hmessage⟩ := exists_issue_of_shortVariable
    (shortVariable_mem_faults hstarts hd) (suggestion snippet) number
  refine ⟨issue, List.mem_flatMap.mpr ⟨_, hin, ?_⟩, hnumber, [d], hsame, hmessage⟩
  rw [hcounters]
  exact hissue

/-- **Aliases of one letter are reported, if their reference is examined or they stand behind an
`AS`.**  On a line of T-SQL without a comment, a reference to a table is examined unless an
earlier reference is that takes its keyword for its own alias, or as the end of its table. -/
theorem short_table_aliases (hsql : snippet.dialect = .sql)
    (hline : (front ++ (ref.text ++ back), number) ∈ snippet.numberedLines)
    (hcode : Text.contains (front ++ (ref.text ++ back)) Code.TransactSql.commentMarker = false)
    (hapart : SetApart front back) (hname : ref.name = [c]) :
    (ref.Examined (front ++ (ref.text ++ back)) front ∨
        ref.link ≠ [] ∧ ¬ EndsWithAs (front ++ ref.lead) →
      ReportsShort snippet number [c]) ∧
    (ref.Examined (front ++ (ref.text ++ back)) front ↔
      ¬ ∃ (earlier : TableReference) (front' passed : List Char), front = front' ++ passed ∧
        earlier.Takes passed ref.keyword ∧
        earlier.Examined (front ++ (ref.text ++ back)) front') := by
  have hstarts : startsIdentifier c = true := ref.isIdentifier_name.starts c (by rw [hname]; rfl)
  constructor
  · rintro (⟨back', -, hmem⟩ | ⟨hlink, has⟩)
    · refine reportsShort_of_mem hsql hline hcode (List.mem_append_left _ hmem) ?_ hstarts
      rw [TableReference.part_matchAt, hname]
    · obtain ⟨linked, htext, hlinked⟩ := ref.exists_linkedName hlink
      have hmem := linked.mem_allMatches (ref.setApart_lead hapart) has
      have hsame : front ++ ref.lead ++ (linked.text ++ back) = front ++ (ref.text ++ back) := by
        simp [TableReference.text, htext]
      rw [hsame] at hmem
      refine reportsShort_of_mem hsql hline hcode (List.mem_append_right _ hmem) ?_ hstarts
      rw [LinkedName.part_matchAt, hlinked, hname]
  · refine ref.examined_iff hapart fun hspells => ?_
    have hlength := hspells.length_eq
    rw [hname] at hlength
    exact absurd (show 2 = 1 from hlength) (by decide)

/-- `JOIN b x`, a table with an alias. -/
def joinedTable : TableReference where
  keyword := "JOIN".toList
  gap := [' ']
  table := ['b']
  spacing := [' ']
  link := []
  name := ['x']
  isTableKeyword := by decide
  isGap_gap := by decide
  table_ne_nil := by decide
  table_solid := List.forall_mem_singleton.mpr (by decide)
  isGap_spacing := by decide
  isLink := Or.inl rfl
  isIdentifier_name := by decide

theorem short_table_aliases_behind_alias :
    let snippet : Snippet := ⟨"SELECT * FROM a t JOIN b x".toList, .sql⟩
    let front := "SELECT * FROM a t ".toList
    joinedTable.Examined (front ++ (joinedTable.text ++ [])) front ∧
      ReportsShort snippet 1 ['x'] := by
  intro snippet front
  have hline : (front ++ (joinedTable.text ++ []), 1) ∈ snippet.numberedLines := by decide
  have hexamined : joinedTable.Examined (front ++ (joinedTable.text ++ [])) front :=
    ⟨[], rfl, by decide +kernel⟩
  obtain ⟨hreports, -⟩ := short_table_aliases rfl hline (by decide) (by decide) rfl
  exact ⟨hexamined, hreports (Or.inl hexamined)⟩

/-- **An alias is missed where the keyword in front of its table is taken for the alias of an
earlier table**, though it is none. -/
theorem short_table_alias_behind_join :
    let snippet : Snippet := ⟨"SELECT * FROM a JOIN b x".toList, .sql⟩
    let front := "SELECT * FROM a ".toList
    snippet.numberedLines = [(front ++ (joinedTable.text ++ []), 1)] ∧
      Text.contains (front ++ (joinedTable.text ++ [])) Code.TransactSql.commentMarker = false ∧
      SetApart front [] ∧ joinedTable.name = ['x'] ∧ nonDescriptiveNames.check snippet = [] ∧
      ¬ ReportsShort snippet 1 ['x'] := by
  intro snippet front
  have hnone : nonDescriptiveNames.check snippet = [] := by decide +kernel
  refine ⟨by decide, by decide, by decide, rfl, hnone, ?_⟩
  rintro ⟨issue, hissue, -⟩
  rw [hnone] at hissue
  cases hissue

end Rule
end LineLint
