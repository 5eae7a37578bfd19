import LineLint.Proofs.LetterCase.Literals
import LineLint.Proofs.LetterCase.Names
import LineLint.Proofs.Review.Locality

/-! # Reviews that ignore letter case

Every rule made for VB.NET or T-SQL ignores the case of ASCII letters, under
whatever thresholds (`RuleTemplate.ignoresCase_build`), and a configured severity
does not look at the text at all.  So texts that differ in letter case only are
reviewed alike in these dialects, and their dialect is detected alike
(`review_of_asciiLower_eq`).
-/
namespace LineLint

open Text (asciiLower)

/-- Every rule made for VB.NET or T-SQL ignores case. -/
theorem RuleTemplate.ignoresCase_build {template : RuleTemplate}
    (h : template ∈ Catalog.templates) {dialect : Dialect}
    (hdialect : dialect = .vbnet ∨ dialect = .sql)
    (happlies : template.plain.appliesTo dialect = true) (get : String → Nat → Nat) :
    (template.build get).IgnoresCase dialect := by
  -- the rules for C# alone tell the cases of their keywords apart
  have hcsharp : (dialect == .csharp) = false := by
    rcases hdialect with rfl | rfl <;> rfl
  simp only [Catalog.templates, List.mem_cons, List.not_mem_nil, or_false] at h
  rcases h with rfl | rfl | rfl | rfl | rfl | rfl | rfl | rfl | rfl | rfl | rfl | rfl | rfl
  · cases happlies.symm.trans hcsharp
  · cases happlies.symm.trans hcsharp
  · cases happlies.symm.trans hcsharp
  · exact Rule.ignoresCase_lineCheck _ (Pattern.occursIn_lower Rule.caseBlind_gotoPattern) dialect
  · exact Rule.ignoresCase_missingEnd dialect
  · exact Rule.ignoresCase_lineCheck _ (Rule.mentions_asciiLower "SELECT *") dialect
  · exact Rule.ignoresCase_lineCheck _ Rule.lacksWhere_asciiLower dialect
  · exact Rule.ignoresCase_lineCheck _ (Rule.mentions_asciiLower "NOLOCK") dialect
  · exact Rule.ignoresCase_nonDescriptiveNames hdialect
  · exact Rule.ignoresCase_deepNesting _ hdialect
  · exact Rule.ignoresCase_longParameterList _ hdialect
  · exact Rule.ignoresCase_largeStructure _ _ hdialect
  · exact Rule.ignoresCase_repeatedLiteral _ dialect

namespace Reviewer

/-- A configured severity is set in the mark alone. -/
theorem marks_withSeverity (severity : Option Severity) {issues issues' : List Issue}
    (h : issues.map Issue.mark = issues'.map Issue.mark) :
    (withSeverity severity issues).map Issue.mark =
      (withSeverity severity issues').map Issue.mark := by
  cases severity with
  | none => exact h
  | some severity =>
    have hset : ∀ issues : List Issue,
        (withSeverity (some severity) issues).map Issue.mark =
          (issues.map Issue.mark).map fun mark => (mark.1, mark.2.1, severity) := by
      intro issues
      rw [withSeverity, List.map_map, List.map_map]
      rfl
    rw [hset, hset, h]

end Reviewer

/-- The segment of a rule that ignores case has the same marks. -/
theorem RuleTemplate.marks_segment (template : RuleTemplate) (snippet : Snippet)
    (settings : RuleSettings)
    (h : (template.build settings.threshold).IgnoresCase snippet.dialect) :
    (template.segment settings snippet.lower).map Issue.mark =
      (template.segment settings snippet).map Issue.mark := by
  have hblank : snippet.lower.isBlank = snippet.isBlank := Text.isBlank_asciiLower snippet.text
  rw [segment, segment, hblank]
  split
  · exact Reviewer.marks_withSeverity settings.severity (h snippet rfl)
  · rfl

/-- **A configured review of VB.NET or T-SQL leaves the same marks on a text in small
letters.** -/
theorem Reviewer.marks_asciiLower {reviewer : Reviewer} {preset : Preset}
    (hrules : reviewer.rules = preset.configured reviewer.config) {dialect : Dialect}
    (hdialect : dialect = .vbnet ∨ dialect = .sql) (text : List Char) :
    (reviewer.review (asciiLower text) dialect).issues.map Issue.mark =
      (reviewer.review text dialect).issues.map Issue.mark := by
  rw [issues_eq_segments hrules, issues_eq_segments hrules, List.map_flatMap, List.map_flatMap]
  refine List.flatMap_congr ?_
  intro template htemplate
  obtain ⟨hmem, happlies⟩ := List.mem_filter.mp htemplate
  refine template.marks_segment ⟨text, dialect⟩ _ ?_
  exact template.ignoresCase_build (Preset.mem_catalog hmem) hdialect happlies _

theorem Detection.detect_asciiLower (text : List Char) :
    detect (asciiLower text) = detect text := by
  rw [detect, Text.isBlank_asciiLower, Text.lower_asciiLower, detect]

/-- **VB.NET and T-SQL are reviewed whatever the case of their letters.**  Two texts that
differ only in the case of ASCII letters get issues of the same kinds and severities on the
same lines in the same order, and the same dialect is detected for both. -/
theorem review_of_asciiLower_eq {dialect : Dialect} (hdialect : dialect = .vbnet ∨ dialect = .sql)
    {a b : List Char} (h : asciiLower a = asciiLower b) :
    (review a dialect).issues.map Issue.mark = (review b dialect).issues.map Issue.mark ∧
      Detection.detect a = Detection.detect b := by
  refine ⟨?_, ?_⟩
  · have hrules : Reviewer.standard.rules = Preset.full.configured .unset := rfl
    have hmarks := Reviewer.marks_asciiLower hrules hdialect
    calc (review a dialect).issues.map Issue.mark
        = (review (asciiLower a) dialect).issues.map Issue.mark := (hmarks a).symm
      _ = (review (asciiLower b) dialect).issues.map Issue.mark := by rw [h]
      _ = (review b dialect).issues.map Issue.mark := hmarks b
  · rw [← Detection.detect_asciiLower a, h, Detection.detect_asciiLower]

/-- A jump, a generic name and a missing terminator are found in either spelling. -/
theorem review_of_asciiLower_eq_mixed :
    let a := "Sub Init\nFOR i = 0 To 9\nGoto Done\nDim I As Integer, Tmp\nDim TMP".toList
    let b := "SUB init\nFor I = 0 TO 9\nGOTO done\nDIM i AS INTEGER, tmp\ndim tmp".toList
    let marks := [("VBNet.GoTo", some 3, Severity.warning),
      ("VBNet.MissingEndSub", none, .error), ("Naming.NonDescriptive", some 5, .info)]
    asciiLower a = asciiLower b ∧ (review a .vbnet).issues.map Issue.mark = marks ∧
      (review b .vbnet).issues.map Issue.mark = marks := by
  intro a b marks
  have h : asciiLower a = asciiLower b := by decide +kernel
  have hmarks : (review a .vbnet).issues.map Issue.mark = marks := by decide +kernel
  refine ⟨h, hmarks, ?_⟩
  rw [← (review_of_asciiLower_eq (Or.inl rfl) h).1]
  exact hmarks

end LineLint
