import LineLint.Proofs.Report.Kinds
import LineLint.Proofs.Review.Locality

/-! # Presets as views

A preset takes rules of the catalog by their family or their name, and a reader of
the report sees kinds of issues.  Each kind of issue is found by one rule
(`IssueKind.rule`), and a rule finds issues of its own kinds only, whatever its
thresholds (`RuleTemplate.findsOwn_build`).  So what a preset reports is a view of
the full report: the issues of the kinds that the preset shows, in the same order
(`Reviewer.review_under_preset`).
-/
namespace LineLint

/-- The name of the rule that finds issues of a kind. -/
def IssueKind.rule : IssueKind → String
  | missingEndSub | missingEndFunction => "VBNet.MissingEnd"
  | largeClass | largeProcedure => "Smell.LargeStructure"
  | kind => kind.name

namespace Rule

/-- Whether all that a rule finds is of kinds that the rule is there to find. -/
def FindsOwn (rule : Rule) : Prop :=
  ∀ snippet, ∀ issue ∈ rule.check snippet,
    ∃ kind : IssueKind, kind.rule = rule.name ∧ issue.kind = kind.name

theorem findsOwn_of_kind {rule : Rule} (kind : IssueKind) (hrule : kind.rule = rule.name)
    (hcheck : ∀ snippet, ∀ issue ∈ rule.check snippet, issue.kind = kind.name) :
    rule.FindsOwn :=
  fun snippet issue hissue => ⟨kind, hrule, hcheck snippet issue hissue⟩

theorem findsOwn_lineCheck (check : LineCheck) (kind : IssueKind) (hrule : kind.rule = check.name)
    (hname : check.name = kind.name) : check.rule.FindsOwn := by
  refine findsOwn_of_kind kind hrule ?_
  intro snippet issue hissue
  obtain ⟨numbered, -, -, rfl⟩ := LineCheck.mem_check_iff.mp hissue
  exact hname

theorem findsOwn_nestedIfs (maxIfs : Nat) : (nestedIfs maxIfs).FindsOwn := by
  refine findsOwn_of_kind .nestedIfs rfl ?_
  intro snippet issue hissue
  obtain ⟨block, -, rfl⟩ := List.mem_map.mp hissue
  rfl

theorem findsOwn_missingEnd : missingEnd.FindsOwn := by
  intro snippet issue hissue
  obtain ⟨kind, -, rfl⟩ := List.mem_map.mp hissue
  cases kind with
  | sub => exact ⟨.missingEndSub, rfl, rfl⟩
  | function => exact ⟨.missingEndFunction, rfl, rfl⟩

theorem findsOwn_nonDescriptiveNames : nonDescriptiveNames.FindsOwn := by
  refine findsOwn_of_kind .nonDescriptive rfl ?_
  intro snippet issue hissue
  obtain ⟨found, -, hissue⟩ := List.mem_flatMap.mp hissue
  obtain ⟨fault, -, rfl⟩ := List.mem_map.mp hissue
  rfl

theorem findsOwn_deepNesting (maxDepth : Nat) : (deepNesting maxDepth).FindsOwn := by
  refine findsOwn_of_kind .deepNesting rfl ?_
  rintro ⟨text, dialect⟩ issue hissue
  cases dialect with
  | unknown => cases hissue
  | csharp | vbnet | sql =>
    obtain ⟨block, -, rfl⟩ := List.mem_map.mp hissue
    rfl

theorem findsOwn_longParameterList (maxParams : Nat) :
    (longParameterList maxParams).FindsOwn := by
  refine findsOwn_of_kind .longParameterList rfl ?_
  intro snippet issue hissue
  obtain ⟨numbered, -, hfound⟩ := List.mem_filterMap.mp hissue
  exact congrArg Prod.fst (eq_of_longParamsIssue? hfound)

theorem findsOwn_largeStructure (maxLines maxMethods : Nat) :
    (largeStructure maxLines maxMethods).FindsOwn := by
  rintro ⟨text, dialect⟩ issue hissue
  cases dialect with
  | unknown => cases hissue
  | csharp | vbnet =>
    obtain ⟨block, -, rfl⟩ := List.mem_map.mp hissue
    exact ⟨.largeClass, rfl, rfl⟩
  | sql =>
    obtain ⟨block, -, rfl⟩ := List.mem_map.mp hissue
    exact ⟨.largeProcedure, rfl, rfl⟩

theorem findsOwn_repeatedLiteral (minLines : Nat) : (repeatedLiteral minLines).FindsOwn := by
  refine findsOwn_of_kind .repeatedLiteral rfl ?_
  intro snippet issue hissue
  obtain ⟨first, -, rfl⟩ := List.mem_map.mp hissue
  rfl

end Rule

namespace RuleTemplate
variable {template : RuleTemplate}

/-- **Every rule of the catalog finds issues of its own kinds only**, whatever its thresholds. -/
theorem findsOwn_build (h : template ∈ Catalog.templates) (get : String → Nat → Nat) :
    (template.build get).FindsOwn := by
  simp only [Catalog.templates, List.mem_cons, List.not_mem_nil, or_false] at h
  rcases h with rfl | rfl | rfl | rfl | rfl | rfl | rfl | rfl | rfl | rfl | rfl | rfl | rfl
  · exact Rule.findsOwn_lineCheck _ .longLine rfl rfl
  · exact Rule.findsOwn_lineCheck _ .todo rfl rfl
  · exact Rule.findsOwn_nestedIfs _
  · exact Rule.findsOwn_lineCheck _ .goto rfl rfl
  · exact Rule.findsOwn_missingEnd
  · exact Rule.findsOwn_lineCheck _ .selectStar rfl rfl
  · exact Rule.findsOwn_lineCheck _ .missingWhere rfl rfl
  · exact Rule.findsOwn_lineCheck _ .noLock rfl rfl
  · exact Rule.findsOwn_nonDescriptiveNames
  · exact Rule.findsOwn_deepNesting _
  · exact Rule.findsOwn_longParameterList _
  · exact Rule.findsOwn_largeStructure _ _
  · exact Rule.findsOwn_repeatedLiteral _

/-- A segment holds issues of the kinds of its rule, at whatever severity. -/
theorem exists_kind_of_mem_segment (h : template ∈ Catalog.templates) {settings : RuleSettings}
    {snippet : Snippet} {issue : Issue} (hissue : issue ∈ template.segment settings snippet) :
    ∃ kind : IssueKind, kind.rule = template.name ∧ issue.kind = kind.name := by
  have hown := template.findsOwn_build h settings.threshold
  rw [Rule.FindsOwn, Catalog.name_build h] at hown
  rw [segment, emission] at hissue
  split at hissue
  · cases hseverity : settings.severity with
    | none =>
      rw [hseverity] at hissue
      exact hown snippet issue hissue
    | some severity =>
      rw [hseverity] at hissue
      obtain ⟨found, hfound, rfl⟩ := List.mem_map.mp hissue
      exact hown snippet found hfound
  · cases hissue

end RuleTemplate

namespace Preset

/-- Whether a preset shows issues of the kind that bears a name. -/
def shows : Preset → String → Bool
  | full, _ => true
  | rulesOnly, kind =>
    ["CSharp.", "VBNet.", "SQL."].any fun front => front.toList.isPrefixOf kind.toList
  | minimal, kind =>
    ["CSharp.LongLine", "VBNet.MissingEndSub", "VBNet.MissingEndFunction",
      "SQL.MissingWhere"].contains kind

/-- A preset shows a kind exactly if it takes the rule of the kind. -/
theorem shows_name (preset : Preset) {template : RuleTemplate}
    (h : template ∈ Catalog.templates) {kind : IssueKind} (hrule : kind.rule = template.name) :
    preset.shows kind.name = preset.takes template.plain := by
  have hall : ∀ template ∈ Catalog.templates, ∀ kind ∈ IssueKind.all,
      kind.rule = template.name → preset.shows kind.name = preset.takes template.plain := by
    cases preset <;> decide
  exact hall template h kind kind.mem_all hrule

/-- A preset shows all of a segment or nothing of it. -/
theorem filter_segment (preset : Preset) {template : RuleTemplate}
    (h : template ∈ Catalog.templates) (settings : RuleSettings) (snippet : Snippet) :
    (template.segment settings snippet).filter (fun issue => preset.shows issue.kind) =
      if preset.takes template.plain then template.segment settings snippet else [] := by
  have hshows : ∀ issue ∈ template.segment settings snippet,
      preset.shows issue.kind = preset.takes template.plain := by
    intro issue hissue
    obtain ⟨kind, hrule, hkind⟩ := template.exists_kind_of_mem_segment h hissue
    rw [hkind, preset.shows_name h hrule]
  cases htakes : preset.takes template.plain with
  | true =>
    rw [if_pos rfl, List.filter_eq_self]
    exact fun issue hissue => (hshows issue hissue).trans htakes
  | false =>
    rw [if_neg Bool.false_ne_true, List.filter_eq_nil_iff]
    exact fun issue hissue hshown =>
      Bool.false_ne_true (((hshows issue hissue).trans htakes).symm.trans hshown)

/-- The rules of a preset are those that it takes of all rules. -/
theorem applicable_eq_filter_full (preset : Preset) (dialect : Dialect) :
    preset.applicable dialect =
      (full.applicable dialect).filter fun template => preset.takes template.plain := by
  have hfull : full.templates = Catalog.templates := List.filter_true _
  rw [applicable, applicable, hfull, templates, List.filter_comm]

end Preset

/-- The configuration with another preset. -/
def Config.under (config : Config) (preset : Preset) : Config :=
  { config with preset := some preset.name }

theorem Config.parsePreset_under (config : Config) (preset : Preset) :
    (config.under preset).parsePreset = .ok preset :=
  Preset.parse_name preset

namespace Reviewer

/-- The issues under a configuration with another preset. -/
theorem issues_under (config : Config) (preset : Preset) (text : List Char) (dialect : Dialect) :
    ((Reviewer.mk (preset.configured (config.under preset)) Intent.describe
        (config.under preset)).review text dialect).issues =
      (preset.applicable dialect).flatMap fun template =>
        template.segment (config.settings template.name) ⟨text, dialect⟩ :=
  issues_eq_segments rfl text dialect

/-- **A preset is a view of the full report.**  Under any configuration, whatever it says of the
rules, a preset gives the summary of the full report and, of its issues, those of the kinds
that the preset shows, in the same order. -/
theorem review_under_preset (config : Config) (preset : Preset) (text : List Char)
    (dialect : Dialect) :
    ∃ full view : Reviewer,
      ofConfig (config.under .full) = .ok full ∧ ofConfig (config.under preset) = .ok view ∧
      (view.review text dialect).summary = (full.review text dialect).summary ∧
      (view.review text dialect).issues =
        (full.review text dialect).issues.filter fun issue => preset.shows issue.kind := by
  refine ⟨_, _, ofConfig_eq (config.parsePreset_under .full),
    ofConfig_eq (config.parsePreset_under preset), ?_, ?_⟩
  · cases hblank : (Snippet.mk text dialect).isBlank <;> simp [review, hblank]
  · rw [issues_under, issues_under, List.filter_flatMap]
    calc (preset.applicable dialect).flatMap (fun template =>
          template.segment (config.settings template.name) ⟨text, dialect⟩)
        = (Preset.full.applicable dialect).flatMap fun template =>
            if preset.takes template.plain then
              template.segment (config.settings template.name) ⟨text, dialect⟩
            else [] := by
          rw [preset.applicable_eq_filter_full, flatMap_filter]
      _ = (Preset.full.applicable dialect).flatMap fun template =>
            (template.segment (config.settings template.name) ⟨text, dialect⟩).filter
              fun issue => preset.shows issue.kind := by
          refine List.flatMap_congr ?_
          intro template htemplate
          have hmem := Preset.mem_catalog (List.mem_filter.mp htemplate).1
          exact (preset.filter_segment hmem _ _).symm

end Reviewer
end LineLint
