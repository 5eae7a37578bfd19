import LineLint.Proofs.Layout.Literals
import LineLint.Proofs.Layout.Names
import LineLint.Proofs.Layout.Summary
import LineLint.Proofs.Review.Locality

/-! # Reviews that do not see the layout

Every rule but the one for long lines ignores the layout, under whatever
thresholds (`RuleTemplate.ignoresLayout_build`), and that one looks at the lines
without their endings.  So a review depends on the lines of a text, however they
end (`review_unifyEndings`); and how far the lines are indented makes no
difference but to the issues for long lines (`review_of_map_dedent_eq`).
-/
namespace LineLint

theorem Snippet.isBlank_congr {s t : Snippet} (h : s.Alike t) : s.isBlank = t.isBlank :=
  Text.lineWise_isBlank.congr h.text

theorem Rule.kind_of_mem_longLine {maxLength : Nat} {severity : Severity} {snippet : Snippet}
    {issue : Issue} (h : issue ∈ (longLine maxLength severity).check snippet) :
    issue.kind = "CSharp.LongLine" := by
  obtain ⟨_, -, -, rfl⟩ := LineCheck.mem_check_iff.mp h
  rfl

namespace RuleTemplate
variable {template : RuleTemplate}

/-- Every rule ignores the layout or looks for long lines. -/
theorem ignoresLayout_or_longLine (h : template ∈ Catalog.templates) (get : String → Nat → Nat) :
    (template.build get).IgnoresLayout ∨
      ∃ maxLength severity, template.build get = Rule.longLine maxLength severity := by
  simp only [Catalog.templates, List.mem_cons, List.not_mem_nil, or_false] at h
  rcases h with rfl | rfl | rfl | rfl | rfl | rfl | rfl | rfl | rfl | rfl | rfl | rfl | rfl
  · exact Or.inr ⟨_, _, rfl⟩
  · exact Or.inl (Rule.ignoresLayout_lineCheck _
      (Text.indentBlind_contains Text.lower_nil Text.lower_break (by decide)) fun _ _ => rfl)
  · exact Or.inl (Rule.ignoresLayout_nestedIfs _)
  · exact Or.inl (Rule.ignoresLayout_lineCheck _
      (Pattern.indentBlind_occursIn (by decide) (by decide)) fun _ _ => rfl)
  · exact Or.inl Rule.ignoresLayout_missingEnd
  · exact Or.inl (Rule.ignoresLayout_lineCheck _ (Rule.indentBlind_mentions (by decide)) fun _ _ => rfl)
  · exact Or.inl (Rule.ignoresLayout_lineCheck _ Rule.indentBlind_lacksWhere fun _ _ => rfl)
  · exact Or.inl (Rule.ignoresLayout_lineCheck _ (Rule.indentBlind_mentions (by decide)) fun _ _ => rfl)
  · exact Or.inl Rule.ignoresLayout_nonDescriptiveNames
  · exact Or.inl (Rule.ignoresLayout_deepNesting _)
  · exact Or.inl (Rule.ignoresLayout_longParameterList _)
  · exact Or.inl (Rule.ignoresLayout_largeStructure _ _)
  · exact Or.inl (Rule.ignoresLayout_repeatedLiteral _)

/-- A rule contributes the same to snippets that are equally blank if it finds the same. -/
theorem segment_congr {settings : RuleSettings} {s t : Snippet} (hblank : s.isBlank = t.isBlank)
    (hcheck : (template.build settings.threshold).check s =
      (template.build settings.threshold).check t) :
    template.segment settings s = template.segment settings t := by
  rw [segment, hblank, emission, hcheck, segment, emission]

/-- A rule contributes the same to snippets with the same lines, however they end. -/
theorem segment_congr_lines (h : template ∈ Catalog.templates) (settings : RuleSettings)
    {s t : Snippet} (hdialect : s.dialect = t.dialect) (hlines : s.lines = t.lines) :
    template.segment settings s = template.segment settings t := by
  have halike : s.Alike t := ⟨hdialect, congrArg (List.map Text.trimStart) hlines⟩
  refine segment_congr (Snippet.isBlank_congr halike) ?_
  rcases template.ignoresLayout_or_longLine h settings.threshold with
    hignores | ⟨maxLength, severity, hlong⟩
  · exact hignores s t halike
  · simp only [hlong, Rule.longLine, LineCheck.rule, Rule.checkLines, Snippet.numberedLines, hlines]

theorem kind_of_mem_segment {settings : RuleSettings} {snippet : Snippet} {kind : String}
    (hcheck : ∀ issue ∈ (template.build settings.threshold).check snippet, issue.kind = kind) :
    ∀ issue ∈ template.segment settings snippet, issue.kind = kind := by
  intro issue hissue
  rw [segment, emission] at hissue
  split at hissue
  · cases hseverity : settings.severity with
    | none =>
      rw [hseverity] at hissue
      exact hcheck issue hissue
    | some severity =>
      rw [hseverity] at hissue
      obtain ⟨found, hfound, rfl⟩ := List.mem_map.mp hissue
      exact hcheck found hfound
  · cases hissue

/-- A rule contributes the same to snippets that are alike, issues for long lines apart. -/
theorem segment_congr_alike (h : template ∈ Catalog.templates) (settings : RuleSettings)
    {s t : Snippet} (halike : s.Alike t) :
    (template.segment settings s).filter (·.kind != "CSharp.LongLine") =
      (template.segment settings t).filter (·.kind != "CSharp.LongLine") := by
  rcases template.ignoresLayout_or_longLine h settings.threshold with
    hignores | ⟨maxLength, severity, hlong⟩
  · rw [segment_congr (Snippet.isBlank_congr halike) (hignores s t halike)]
  · have hnone : ∀ snippet : Snippet,
        (template.segment settings snippet).filter (·.kind != "CSharp.LongLine") = [] := by
      intro snippet
      refine List.filter_eq_nil_iff.mpr ?_
      intro issue hissue
      have hkind := kind_of_mem_segment
        (fun _ hfound => Rule.kind_of_mem_longLine (hlong ▸ hfound)) issue hissue
      simp [hkind]
    rw [hnone, hnone]

end RuleTemplate

namespace Reviewer
variable {reviewer : Reviewer} {preset : Preset} {a b : List Char}

/-- Texts that are alike have the same summary. -/
theorem summary_congr (hsummarize : reviewer.summarize = Intent.describe)
    (h : Text.Alike a b) (dialect : Dialect) :
    (reviewer.review a dialect).summary = (reviewer.review b dialect).summary := by
  have halike : Snippet.Alike ⟨a, dialect⟩ ⟨b, dialect⟩ := ⟨rfl, h⟩
  rw [review, review, Snippet.isBlank_congr halike, hsummarize, Intent.describe_congr halike]
  split <;> rfl

/-- **A review depends on the lines of a text alone**, and not on how they end. -/
theorem review_congr_lines (hrules : reviewer.rules = preset.configured reviewer.config)
    (hsummarize : reviewer.summarize = Intent.describe) (h : Text.lines a = Text.lines b)
    (dialect : Dialect) : reviewer.review a dialect = reviewer.review b dialect := by
  have halike : Text.Alike a b := congrArg (List.map Text.trimStart) h
  have hissues : (reviewer.review a dialect).issues = (reviewer.review b dialect).issues := by
    rw [issues_eq_segments hrules, issues_eq_segments hrules]
    refine List.flatMap_congr ?_
    intro template htemplate
    have hmem := Preset.mem_catalog (List.mem_filter.mp htemplate).1
    exact template.segment_congr_lines hmem _ rfl h
  have hsummary := summary_congr hsummarize halike dialect
  calc reviewer.review a dialect
      = ⟨(reviewer.review a dialect).summary, (reviewer.review a dialect).issues⟩ := rfl
    _ = ⟨(reviewer.review b dialect).summary, (reviewer.review b dialect).issues⟩ := by
        rw [hsummary, hissues]
    _ = reviewer.review b dialect := rfl

/-- **Texts that are alike get the same issues, those for long lines apart.** -/
theorem issues_congr_alike (hrules : reviewer.rules = preset.configured reviewer.config)
    (h : Text.Alike a b) (dialect : Dialect) :
    (reviewer.review a dialect).issues.filter (·.kind != "CSharp.LongLine") =
      (reviewer.review b dialect).issues.filter (·.kind != "CSharp.LongLine") := by
  rw [issues_eq_segments hrules, issues_eq_segments hrules, List.filter_flatMap,
    List.filter_flatMap]
  refine List.flatMap_congr ?_
  intro template htemplate
  have hmem := Preset.mem_catalog (List.mem_filter.mp htemplate).1
  exact template.segment_congr_alike hmem _ ⟨rfl, h⟩

end Reviewer

/-- **Reviews are independent of line endings.**  A text and the text with all its line endings
written as `\n` are of the same dialect, and they have the same review in every dialect. -/
theorem review_unifyEndings (text : List Char) (dialect : Dialect) :
    Detection.detect (Text.unifyEndings text) = Detection.detect text ∧
      review (Text.unifyEndings text) dialect = review text dialect := by
  have hlines : Text.lines (Text.unifyEndings text) = Text.lines text :=
    Text.lines_unifyEndings text
  exact ⟨Detection.detect_congr (congrArg (List.map Text.trimStart) hlines),
    Reviewer.review_congr_lines Reviewer.rules_standard rfl hlines dialect⟩

/-- **Reviews are independent of indentation.**  Two texts with the same line endings, and with
lines that are equal up to the spaces and tabs they start with, are of the same dialect; and
they have the same summary and the same issues, those for long lines apart. -/
theorem review_of_map_dedent_eq {a b : List Char}
    (h : (Text.rows a).map Text.Row.dedent = (Text.rows b).map Text.Row.dedent)
    (dialect : Dialect) :
    Detection.detect a = Detection.detect b ∧
      (review a dialect).summary = (review b dialect).summary ∧
      (review a dialect).issues.filter (·.kind != "CSharp.LongLine") =
        (review b dialect).issues.filter (·.kind != "CSharp.LongLine") := by
  have halike : Text.Alike a b := Text.alike_of_map_dedent h
  exact ⟨Detection.detect_congr halike, Reviewer.summary_congr rfl halike dialect,
    Reviewer.issues_congr_alike Reviewer.rules_standard halike dialect⟩

/-- A line that is indented far enough becomes a long line, and nothing else changes. -/
theorem review_of_map_dedent_eq_far :
    let a := "void F()\r\n\x7b\nvar x = 1; // TODO\r\x7d".toList
    let b := "\tvoid F()\r\n\t\x7b\n".toList ++ List.replicate 110 ' ' ++
      "\tvar x = 1; // TODO\r \t\x7d".toList
    (Text.rows a).map Text.Row.dedent = (Text.rows b).map Text.Row.dedent ∧
      Detection.detect b = .csharp ∧
      (review a .csharp).issues.map (fun issue => (issue.kind, issue.line)) =
        [("CSharp.TODO", some 3), ("Naming.NonDescriptive", some 1),
          ("Naming.NonDescriptive", some 3)] ∧
      (review b .csharp).issues.filter (·.kind != "CSharp.LongLine") =
        (review a .csharp).issues ∧
      ((review b .csharp).ofKind "CSharp.LongLine").map Issue.line = [some 3] := by
  intro a b
  have h : (Text.rows a).map Text.Row.dedent = (Text.rows b).map Text.Row.dedent := by
    decide +kernel
  obtain ⟨hdetect, -, hissues⟩ := review_of_map_dedent_eq h .csharp
  refine ⟨h, ?_, by decide +kernel, ?_, by decide +kernel⟩
  · rw [← hdetect]
    decide +kernel
  · rw [← hissues]
    decide +kernel

end LineLint
