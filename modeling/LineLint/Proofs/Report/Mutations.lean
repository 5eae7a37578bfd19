import LineLint.Proofs.Layout.Rules
import LineLint.Proofs.Report.Kinds
import LineLint.Proofs.Review.Locality

/-! # Mutations that are detected

A line that deletes or updates without a filter is an error, but only in a text that
is reviewed as T-SQL.  Which dialect a text is of is told by telltale texts, tier by
tier (`Detection.detect_eq`), and those of T-SQL are not the keywords that the rule
looks for: `delete` is none of them.

So among texts without a telltale text of C# or VB.NET the rule has its say on those
with one of T-SQL, and on no others (`review_missingWhere_iff`).  A text that does
nothing but delete is of no known dialect, and its deletion goes unreported
(`review_of_delete_alone`).
-/
namespace LineLint
namespace Detection

/-- The telltale texts of a dialect. -/
def markers (dialect : Dialect) : List String :=
  (tiers.filter fun tier => tier.1 == dialect).flatMap (·.2)

/-- Whether a text holds a telltale text of a dialect, in any case. -/
def hints (text : List Char) (dialect : Dialect) : Bool :=
  holdsMarker (Text.lower text) (markers dialect)

/-- The dialects are tried one after the other. -/
theorem detect_eq (text : List Char) :
    detect text =
      if Text.isBlank text then .unknown
      else if hints text .csharp then .csharp
      else if hints text .vbnet then .vbnet
      else if hints text .sql then .sql
      else .unknown := by
  have hmarkers : tiers = [(.csharp, markers .csharp), (.vbnet, markers .vbnet),
      (.sql, markers .sql)] := rfl
  rw [detect, hmarkers]
  by_cases hblank : Text.isBlank text = true
  · rw [if_pos hblank, if_pos hblank]
  · rw [if_neg hblank, if_neg hblank]
    cases hcsharp : hints text .csharp <;> cases hvbnet : hints text .vbnet <;>
      cases hsql : hints text .sql <;> rw [hints] at hcsharp hvbnet hsql <;>
        simp [hcsharp, hvbnet, hsql]

end Detection

namespace Text

/-- A blank text has blank lines. -/
theorem isBlank_of_mem_lines {text line : List Char} (hblank : isBlank text = true)
    (hline : line ∈ lines text) : isBlank line = true := by
  obtain ⟨row, hrow, rfl⟩ := List.mem_map.mp hline
  refine List.all_eq_true.mpr ?_
  intro c hc
  refine List.all_eq_true.mp hblank c ?_
  rw [← flatten_rows text]
  exact List.mem_flatten.mpr ⟨row.line ++ row.ending, List.mem_map_of_mem hrow,
    List.mem_append_left _ hc⟩

end Text

namespace Rule

/-- A blank line mentions no mutation. -/
theorem lacksWhere_of_isBlank {line : List Char} (h : Text.isBlank line = true) :
    lacksWhere line = false := by
  rw [← indentBlind_lacksWhere.trimStart line, (Text.trimStart_eq_nil_iff line).mpr h]
  rfl

/-- A text with a mutation is not blank. -/
theorem isBlank_of_missingWhere {text : List Char}
    (h : missingWhere.check ⟨text, .sql⟩ ≠ []) : Text.isBlank text = false := by
  obtain ⟨issue, hissue⟩ := List.exists_mem_of_ne_nil _ h
  obtain ⟨numbered, hmem, hbad, -⟩ := LineCheck.mem_check_iff.mp hissue
  have hline : numbered.1 ∈ Text.lines text := List.fst_mem_of_mem_zipIdx hmem
  cases hblank : Text.isBlank text with
  | false => rfl
  | true =>
    have hsound := lacksWhere_of_isBlank (Text.isBlank_of_mem_lines hblank hline)
    cases hbad.symm.trans hsound

end Rule

/-- Every issue of a review is of a kind that is found in the dialect. -/
theorem exists_isFoundIn_of_mem_review {text : List Char} {dialect : Dialect} {issue : Issue}
    (h : issue ∈ (review text dialect).issues) :
    ∃ kind : IssueKind, kind.isFoundIn dialect = true ∧ issue.kind = kind.name := by
  rw [review, Reviewer.issues_eq_familyIssues, List.mem_append, List.mem_append] at h
  rcases h with (h | h) | h <;>
    · obtain ⟨kind, -, hfound, hfits⟩ := fits_of_mem_standard h
      exact ⟨kind, hfound, hfits.name⟩

/-- A review of T-SQL reports the mutations that the rule finds. -/
theorem mem_review_of_mem_missingWhere {text : List Char} {issue : Issue}
    (hissue : issue ∈ Rule.missingWhere.check ⟨text, .sql⟩) :
    issue ∈ (review text .sql).issues := by
  have hblank : Text.isBlank text = false :=
    Rule.isBlank_of_missingWhere (List.ne_nil_of_mem hissue)
  rw [review, Reviewer.issues_eq_segments Reviewer.rules_standard]
  refine List.mem_flatMap.mpr ⟨⟨"SQL.MissingWhere", fun _ => .missingWhere⟩, ?_, ?_⟩
  · refine List.mem_filter.mpr ⟨List.mem_filter.mpr ⟨?_, rfl⟩, rfl⟩
    simp [Catalog.templates]
  · have hshown : (!(Snippet.mk text .sql).isBlank) = true := by rw [Snippet.isBlank, hblank]; rfl
    rw [RuleTemplate.segment, hshown]
    exact hissue

/-- **When mutations are reported.**  Take a text without a telltale text of C# or VB.NET, on
which the rule for mutations finds something.  The text is of T-SQL exactly if it holds a
telltale text of T-SQL; its review as what it is detected to be reports all that the rule
finds exactly in that case, and otherwise reports no mutation at all. -/
theorem review_missingWhere_iff {text : List Char}
    (hcsharp : Detection.hints text .csharp = false)
    (hvbnet : Detection.hints text .vbnet = false)
    (hfound : Rule.missingWhere.check ⟨text, .sql⟩ ≠ []) :
    (Detection.detect text = .sql ↔ Detection.hints text .sql = true) ∧
      ((∀ issue ∈ Rule.missingWhere.check ⟨text, .sql⟩,
          issue ∈ (review text (Detection.detect text)).issues) ↔
        Detection.hints text .sql = true) ∧
      ((∀ issue ∈ (review text (Detection.detect text)).issues,
          issue.kind ≠ "SQL.MissingWhere") ↔
        Detection.hints text .sql = false) := by
  have hdetect : Detection.detect text =
      if Detection.hints text .sql then .sql else .unknown := by
    rw [Detection.detect_eq, Rule.isBlank_of_missingWhere hfound, hcsharp, hvbnet]
    rfl
  obtain ⟨first, hfirst⟩ := List.exists_mem_of_ne_nil _ hfound
  have hkind : first.kind = IssueKind.missingWhere.name := by
    obtain ⟨_, -, rfl⟩ := List.mem_map.mp hfirst
    rfl
  cases hsql : Detection.hints text .sql with
  | true =>
    rw [hsql] at hdetect
    have hreported : ∀ issue ∈ Rule.missingWhere.check ⟨text, .sql⟩,
        issue ∈ (review text (Detection.detect text)).issues := by
      intro issue hissue
      rw [hdetect]
      exact mem_review_of_mem_missingWhere hissue
    refine ⟨iff_of_true hdetect rfl, iff_of_true hreported rfl, iff_of_false ?_ nofun⟩
    exact fun hnone => hnone first (hreported first hfirst) hkind
  | false =>
    rw [hsql] at hdetect
    -- in no dialect at all, mutations are not looked for
    have hnone : ∀ issue ∈ (review text (Detection.detect text)).issues,
        issue.kind ≠ IssueKind.missingWhere.name := by
      intro issue hissue hmissing
      rw [hdetect] at hissue
      obtain ⟨kind, hfoundIn, hname⟩ := exists_isFoundIn_of_mem_review hissue
      rw [IssueKind.eq_of_name_eq (hname.symm.trans hmissing)] at hfoundIn
      cases hfoundIn
    refine ⟨iff_of_false ?_ nofun, iff_of_false ?_ nofun, iff_of_true hnone rfl⟩
    · rw [hdetect]
      exact nofun
    · exact fun hreported => hnone first (hreported first hfirst) hkind

/-- A deletion beside a query is reported. -/
theorem review_missingWhere_iff_beside_select :
    let text := "Delete\tFROM Orders\nSELECT 1".toList
    Detection.hints text .csharp = false ∧ Detection.hints text .vbnet = false ∧
      Detection.hints text .sql = true ∧
      (Rule.missingWhere.check ⟨text, .sql⟩).map Issue.line = [some 1] ∧
      ∀ issue ∈ Rule.missingWhere.check ⟨text, .sql⟩,
        issue ∈ (review text (Detection.detect text)).issues := by
  intro text
  have hcsharp : Detection.hints text .csharp = false := by decide
  have hvbnet : Detection.hints text .vbnet = false := by decide
  have hsql : Detection.hints text .sql = true := by decide
  have hlines : (Rule.missingWhere.check ⟨text, .sql⟩).map Issue.line = [some 1] := by
    decide
  have hfound : Rule.missingWhere.check ⟨text, .sql⟩ ≠ [] := by
    intro hnil
    rw [hnil] at hlines
    cases hlines
  obtain ⟨-, hreported, -⟩ := review_missingWhere_iff hcsharp hvbnet hfound
  exact ⟨hcsharp, hvbnet, hsql, hlines, hreported.mpr hsql⟩

/-- **A deletion on its own goes unreported**: the rule finds it, but the text is of no known
dialect, and its review has no errors. -/
theorem review_of_delete_alone :
    let text := "DELETE FROM Orders".toList
    Detection.hints text .csharp = false ∧ Detection.hints text .vbnet = false ∧
      (Rule.missingWhere.check ⟨text, .sql⟩).map Issue.line = [some 1] ∧
      Detection.detect text = .unknown ∧
      (review text (Detection.detect text)).hasErrors = false := by
  decide

end LineLint
