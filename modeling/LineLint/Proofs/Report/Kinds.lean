import LineLint.Proofs.Block.Layout
import LineLint.Proofs.Review.Schedule
import Mathlib.Data.List.Nodup

/-! # The kinds of issues

There are fifteen kinds of issues.  Each has a name and a severity, belongs to a
family, and is found in certain dialects; issues of two kinds concern the snippet
as a whole, and all others have a line.

A rule conforms if all that it finds is of such kinds, on lines that are there
(`Rule.Conforms`).  All rules of the catalog do, whatever their thresholds
(`RuleTemplate.conforms_build`), so the issues of a review are of these kinds,
family by family (`review_kinds`).
-/
namespace LineLint

/-- The kinds of issues. -/
inductive IssueKind where
  /-- A line of C# that is too long. -/
  | longLine
  /-- A `TODO` mark in C#. -/
  | todo
  /-- A method of C# with too many `if` words. -/
  | nestedIfs
  /-- A jump in VB.NET. -/
  | goto
  /-- A `Sub` of VB.NET without a terminator. -/
  | missingEndSub
  /-- A `Function` of VB.NET without a terminator. -/
  | missingEndFunction
  /-- A query for all columns. -/
  | selectStar
  /-- A mutation of a whole table. -/
  | missingWhere
  /-- A hint that allows uncommitted reads. -/
  | noLock
  /-- A name that says nothing. -/
  | nonDescriptive
  /-- A body that nests too deeply. -/
  | deepNesting
  /-- A parameter list that is too long. -/
  | longParameterList
  /-- A class that is too large. -/
  | largeClass
  /-- A procedure of T-SQL that is too large. -/
  | largeProcedure
  /-- A literal that occurs on several lines. -/
  | repeatedLiteral
  deriving DecidableEq, Repr

namespace IssueKind

/-- The dotted name of a kind. -/
def name : IssueKind → String
  | longLine => "CSharp.LongLine"
  | todo => "CSharp.TODO"
  | nestedIfs => "CSharp.NestedIfs"
  | goto => "VBNet.GoTo"
  | missingEndSub => "VBNet.MissingEndSub"
  | missingEndFunction => "VBNet.MissingEndFunction"
  | selectStar => "SQL.SelectStar"
  | missingWhere => "SQL.MissingWhere"
  | noLock => "SQL.NoLock"
  | nonDescriptive => "Naming.NonDescriptive"
  | deepNesting => "Smell.DeepNesting"
  | longParameterList => "Smell.LongParameterList"
  | largeClass => "Smell.LargeClass"
  | largeProcedure => "Smell.LargeProcedure"
  | repeatedLiteral => "Smell.RepeatedLiteral"

/-- How grave issues of a kind are. -/
def severity : IssueKind → Severity
  | missingEndSub | missingEndFunction | missingWhere => .error
  | longLine | nestedIfs | goto | selectStar | deepNesting | longParameterList => .warning
  | todo | noLock | nonDescriptive | largeClass | largeProcedure | repeatedLiteral => .info

/-- The family of the rules that find issues of a kind. -/
def family : IssueKind → Family
  | longLine | todo | nestedIfs | goto | missingEndSub | missingEndFunction | selectStar
  | missingWhere | noLock => .dialect
  | nonDescriptive => .naming
  | deepNesting | longParameterList | largeClass | largeProcedure | repeatedLiteral => .smell

/-- Whether issues of a kind are found in a dialect. -/
def isFoundIn : IssueKind → Dialect → Bool
  | longLine, dialect | todo, dialect | nestedIfs, dialect => dialect == .csharp
  | goto, dialect | missingEndSub, dialect | missingEndFunction, dialect => dialect == .vbnet
  | selectStar, dialect | missingWhere, dialect | noLock, dialect => dialect == .sql
  | nonDescriptive, dialect | deepNesting, dialect | longParameterList, dialect =>
    dialect != .unknown
  | largeClass, dialect => dialect == .csharp || dialect == .vbnet
  | largeProcedure, dialect => dialect == .sql
  | repeatedLiteral, _ => true

/-- Whether issues of a kind concern the snippet as a whole. -/
def isWhole : IssueKind → Bool
  | missingEndSub | missingEndFunction => true
  | _ => false

/-- All kinds. -/
def all : List IssueKind :=
  [longLine, todo, nestedIfs, goto, missingEndSub, missingEndFunction, selectStar, missingWhere,
   noLock, nonDescriptive, deepNesting, longParameterList, largeClass, largeProcedure,
   repeatedLiteral]

theorem mem_all (kind : IssueKind) : kind ∈ all := by
  cases kind <;> decide

theorem nodup_names : (all.map name).Nodup := by
  decide

theorem eq_of_name_eq {a b : IssueKind} (h : a.name = b.name) : a = b :=
  List.inj_on_of_nodup_map nodup_names (mem_all a) (mem_all b) h

theorem isWhole_iff (kind : IssueKind) :
    kind.isWhole = true ↔
      kind.name = missingEndSub.name ∨ kind.name = missingEndFunction.name := by
  refine ⟨?_, ?_⟩
  · intro h
    cases kind with
    | missingEndSub => exact Or.inl rfl
    | missingEndFunction => exact Or.inr rfl
    | _ => cases h
  · rintro (h | h) <;> rw [eq_of_name_eq h] <;> rfl

end IssueKind

namespace Snippet

/-- Whether the snippet has a line of a number. -/
def HasLine (snippet : Snippet) (number : Nat) : Prop :=
  1 ≤ number ∧ number ≤ snippet.lines.length

theorem hasLine_of_mem_numberedLines {snippet : Snippet} {numbered : List Char × Nat}
    (h : numbered ∈ snippet.numberedLines) : snippet.HasLine numbered.2 := by
  obtain ⟨hge, hlt, -⟩ := List.mem_zipIdx h
  exact ⟨hge, by omega⟩

theorem hasLine_start {snippet : Snippet} (kind : Code.BlockKind) {block : Code.Block}
    (h : block ∈ kind.blocks snippet.lines) : snippet.HasLine block.start := by
  obtain ⟨hge, hle, hstop⟩ := kind.bounds h
  exact ⟨hge, Nat.le_trans hle hstop⟩

theorem hasLine_stop {snippet : Snippet} (kind : Code.BlockKind) {block : Code.Block}
    (h : block ∈ kind.blocks snippet.lines) : snippet.HasLine block.stop := by
  obtain ⟨hge, hle, hstop⟩ := kind.bounds h
  exact ⟨Nat.le_trans hge hle, hstop⟩

end Snippet

/-- Whether an issue is as its kind says, with a line of the snippet or, for the two kinds
that concern it as a whole, with none. -/
structure Issue.Fits (issue : Issue) (kind : IssueKind) (snippet : Snippet) : Prop where
  name : issue.kind = kind.name
  severity : issue.severity = kind.severity
  whole : issue.line = none ↔ kind.isWhole = true
  line : ∀ number, issue.line = some number → snippet.HasLine number

theorem Issue.Fits.of_line {issue : Issue} {kind : IssueKind} {snippet : Snippet} {number : Nat}
    (hname : issue.kind = kind.name) (hseverity : issue.severity = kind.severity)
    (hwhole : kind.isWhole = false) (hline : issue.line = some number)
    (hnumber : snippet.HasLine number) : issue.Fits kind snippet where
  name := hname
  severity := hseverity
  whole := by simp [hline, hwhole]
  line other hother := by
    rw [hline] at hother
    rw [← Option.some.inj hother]
    exact hnumber

/-- First occurrences are some of all occurrences, in the same order. -/
theorem Literal.firstOccurrences_sublist (seen : List Key) (all : List Occurrence) :
    (firstOccurrences seen all).Sublist all := by
  induction all generalizing seen with
  | nil => exact List.Sublist.refl []
  | cons occurrence all ih =>
    unfold firstOccurrences
    split
    · exact (ih seen).cons occurrence
    · exact (ih (occurrence.key :: seen)).cons_cons occurrence

namespace Rule

/-- Whether all that a rule finds is of the kinds of its family and of the dialect. -/
def Conforms (rule : Rule) : Prop :=
  ∀ snippet : Snippet, rule.appliesTo snippet.dialect = true → ∀ issue ∈ rule.check snippet,
    ∃ kind : IssueKind, kind.family = rule.family ∧ kind.isFoundIn snippet.dialect = true ∧
      issue.Fits kind snippet

/-- A rule conforms if it finds issues of one kind, each on a line that is there. -/
theorem conforms_of_kind {rule : Rule} (kind : IssueKind) (hfamily : kind.family = rule.family)
    (hdialects : rule.appliesTo = kind.isFoundIn) (hwhole : kind.isWhole = false)
    (hcheck : ∀ snippet : Snippet, ∀ issue ∈ rule.check snippet, ∃ number,
      snippet.HasLine number ∧
        (issue.kind, issue.severity, issue.line) = (kind.name, kind.severity, some number)) :
    rule.Conforms := by
  intro snippet happlies issue hissue
  rw [hdialects] at happlies
  obtain ⟨number, hnumber, heq⟩ := hcheck snippet issue hissue
  simp only [Prod.mk.injEq] at heq
  obtain ⟨hname, hseverity, hline⟩ := heq
  exact ⟨kind, hfamily, happlies, .of_line hname hseverity hwhole hline hnumber⟩

/-! ## Dialect rules -/

/-- A rule for single lines conforms if its name is that of a kind found in its dialect. -/
theorem conforms_lineCheck (check : LineCheck) (kind : IssueKind) (hname : check.name = kind.name)
    (hseverity : check.severity = kind.severity) (hfamily : kind.family = .dialect)
    (hdialect : (fun dialect => dialect == check.dialect) = kind.isFoundIn)
    (hwhole : kind.isWhole = false) : check.rule.Conforms := by
  refine conforms_of_kind kind hfamily hdialect hwhole ?_
  intro snippet issue hissue
  obtain ⟨numbered, hnumbered, -, rfl⟩ := LineCheck.mem_check_iff.mp hissue
  refine ⟨numbered.2, Snippet.hasLine_of_mem_numberedLines hnumbered, ?_⟩
  rw [LineCheck.issue, hname, hseverity]

theorem conforms_nestedIfs (maxIfs : Nat) : (nestedIfs maxIfs).Conforms := by
  refine conforms_of_kind .nestedIfs rfl rfl rfl ?_
  intro snippet issue hissue
  obtain ⟨block, hblock, rfl⟩ := List.mem_map.mp hissue
  exact ⟨block.stop, Snippet.hasLine_stop .csharpMethod (List.mem_filter.mp hblock).1, rfl⟩

theorem conforms_missingEnd : missingEnd.Conforms := by
  intro snippet happlies issue hissue
  obtain ⟨kind, -, rfl⟩ := List.mem_map.mp hissue
  -- the issue has no line, so there is none to be shown to exist
  cases kind with
  | sub => exact ⟨.missingEndSub, rfl, happlies, rfl, rfl, by decide, nofun⟩
  | function => exact ⟨.missingEndFunction, rfl, happlies, rfl, rfl, by decide, nofun⟩

/-! ## Names -/

theorem conforms_nonDescriptiveNames : nonDescriptiveNames.Conforms := by
  refine conforms_of_kind .nonDescriptive rfl rfl rfl ?_
  intro snippet issue hissue
  obtain ⟨found, hfound, hissue⟩ := List.mem_flatMap.mp hissue
  obtain ⟨numbered, hnumbered, hfound⟩ := List.mem_flatMap.mp hfound
  obtain ⟨named, -, rfl⟩ := List.mem_map.mp hfound
  obtain ⟨fault, -, rfl⟩ := List.mem_map.mp hissue
  exact ⟨numbered.2, Snippet.hasLine_of_mem_numberedLines hnumbered, rfl⟩

/-! ## Smells -/

theorem hasLine_start_proceduresOrBatch {snippet : Snippet} {block : Code.Block}
    (h : block ∈ proceduresOrBatch snippet.lines) : snippet.HasLine block.start := by
  rw [proceduresOrBatch] at h
  split at h
  · -- the batch starts at the first line, and there always is one
    rw [List.mem_singleton.mp h]
    exact ⟨Nat.le_refl 1, List.length_pos_iff.mpr (Text.lines_ne_nil snippet.text)⟩
  · exact Snippet.hasLine_start .sqlProcedure h

theorem conforms_deepNesting (maxDepth : Nat) : (deepNesting maxDepth).Conforms := by
  refine conforms_of_kind .deepNesting rfl rfl rfl ?_
  rintro ⟨text, dialect⟩ issue hissue
  cases dialect with
  | csharp =>
    obtain ⟨block, hblock, rfl⟩ := List.mem_map.mp hissue
    exact ⟨block.start, Snippet.hasLine_start .csharpMethod (List.mem_filter.mp hblock).1, rfl⟩
  | vbnet =>
    obtain ⟨block, hblock, rfl⟩ := List.mem_map.mp hissue
    exact ⟨block.start, Snippet.hasLine_start .vbnetProcedure (List.mem_filter.mp hblock).1, rfl⟩
  | sql =>
    obtain ⟨block, hblock, rfl⟩ := List.mem_map.mp hissue
    exact ⟨block.start, hasLine_start_proceduresOrBatch (List.mem_filter.mp hblock).1, rfl⟩
  | unknown => cases hissue

theorem eq_of_longParamsIssue? {maxParams number : Nat} {dialect : Dialect} {line : List Char}
    {issue : Issue} (h : longParamsIssue? maxParams dialect number line = some issue) :
    (issue.kind, issue.severity, issue.line) =
      ("Smell.LongParameterList", .warning, some number) := by
  rw [longParamsIssue?] at h
  split at h
  · cases h
  · split at h
    · cases h
    · split at h
      · rw [← Option.some.inj h]
      · cases h

theorem conforms_longParameterList (maxParams : Nat) :
    (longParameterList maxParams).Conforms := by
  refine conforms_of_kind .longParameterList rfl rfl rfl ?_
  intro snippet issue hissue
  obtain ⟨numbered, hnumbered, hfound⟩ := List.mem_filterMap.mp hissue
  exact ⟨numbered.2, Snippet.hasLine_of_mem_numberedLines hnumbered, eq_of_longParamsIssue? hfound⟩

theorem conforms_largeStructure (maxLines maxMethods : Nat) :
    (largeStructure maxLines maxMethods).Conforms := by
  rintro ⟨text, dialect⟩ - issue hissue
  cases dialect with
  | csharp =>
    obtain ⟨block, hblock, rfl⟩ := List.mem_map.mp hissue
    have hline := Snippet.hasLine_start .csharpClass (List.mem_filter.mp hblock).1
    exact ⟨.largeClass, rfl, rfl, .of_line rfl rfl rfl rfl hline⟩
  | vbnet =>
    obtain ⟨block, hblock, rfl⟩ := List.mem_map.mp hissue
    have hline := Snippet.hasLine_start .vbnetClass (List.mem_filter.mp hblock).1
    exact ⟨.largeClass, rfl, rfl, .of_line rfl rfl rfl rfl hline⟩
  | sql =>
    obtain ⟨block, hblock, rfl⟩ := List.mem_map.mp hissue
    have hline := Snippet.hasLine_start .sqlProcedure (List.mem_filter.mp hblock).1
    exact ⟨.largeProcedure, rfl, rfl, .of_line rfl rfl rfl rfl hline⟩
  | unknown => cases hissue

theorem conforms_repeatedLiteral (minLines : Nat) : (repeatedLiteral minLines).Conforms := by
  refine conforms_of_kind .repeatedLiteral rfl rfl rfl ?_
  intro snippet issue hissue
  obtain ⟨first, hfirst, rfl⟩ := List.mem_map.mp hissue
  have hsublist := Literal.firstOccurrences_sublist [] (Literal.occurrences snippet)
  have hmem := hsublist.subset (List.mem_filter.mp hfirst).1
  obtain ⟨numbered, hnumbered, hoccurs⟩ := List.mem_flatMap.mp hmem
  obtain ⟨literal, -, rfl⟩ := List.mem_map.mp hoccurs
  exact ⟨numbered.2, Snippet.hasLine_of_mem_numberedLines hnumbered, rfl⟩

end Rule

/-- **Every rule of the catalog conforms**, whatever its thresholds. -/
theorem RuleTemplate.conforms_build {template : RuleTemplate} (h : template ∈ Catalog.templates)
    (get : String → Nat → Nat) : (template.build get).Conforms := by
  simp only [Catalog.templates, List.mem_cons, List.not_mem_nil, or_false] at h
  rcases h with rfl | rfl | rfl | rfl | rfl | rfl | rfl | rfl | rfl | rfl | rfl | rfl | rfl
  · exact Rule.conforms_lineCheck _ .longLine rfl rfl rfl rfl rfl
  · exact Rule.conforms_lineCheck _ .todo rfl rfl rfl rfl rfl
  · exact Rule.conforms_nestedIfs _
  · exact Rule.conforms_lineCheck _ .goto rfl rfl rfl rfl rfl
  · exact Rule.conforms_missingEnd
  · exact Rule.conforms_lineCheck _ .selectStar rfl rfl rfl rfl rfl
  · exact Rule.conforms_lineCheck _ .missingWhere rfl rfl rfl rfl rfl
  · exact Rule.conforms_lineCheck _ .noLock rfl rfl rfl rfl rfl
  · exact Rule.conforms_nonDescriptiveNames
  · exact Rule.conforms_deepNesting _
  · exact Rule.conforms_longParameterList _
  · exact Rule.conforms_largeStructure _ _
  · exact Rule.conforms_repeatedLiteral _

namespace Reviewer

/-- The issues that the rules of a family contribute to a review. -/
def familyIssues (reviewer : Reviewer) (snippet : Snippet) (family : Family) : List Issue :=
  if snippet.isBlank then []
  else
    (reviewer.rules.filter fun rule => rule.family == family).flatMap
      (reviewer.contribution snippet)

/-- A review lists its issues family by family. -/
theorem issues_eq_familyIssues (reviewer : Reviewer) (text : List Char) (dialect : Dialect) :
    (reviewer.review text dialect).issues =
      reviewer.familyIssues ⟨text, dialect⟩ .dialect ++
        reviewer.familyIssues ⟨text, dialect⟩ .naming ++
          reviewer.familyIssues ⟨text, dialect⟩ .smell := by
  cases hblank : (Snippet.mk text dialect).isBlank with
  | true => simp [review, familyIssues, hblank]
  | false => simp [review, familyIssues, schedule, Family.all, hblank, List.flatMap_append]

/-- As long as no severity is configured, what the rules of a family contribute is of the
kinds of that family. -/
theorem fits_of_mem_familyIssues {reviewer : Reviewer} {preset : Preset}
    (hrules : reviewer.rules = preset.configured reviewer.config)
    (hseverity : ∀ rule, reviewer.config.severityOf rule = none) {snippet : Snippet}
    {family : Family} {issue : Issue} (h : issue ∈ reviewer.familyIssues snippet family) :
    ∃ kind : IssueKind, kind.family = family ∧ kind.isFoundIn snippet.dialect = true ∧
      issue.Fits kind snippet := by
  rw [familyIssues] at h
  split at h
  · cases h
  · obtain ⟨rule, hrule, hissue⟩ := List.mem_flatMap.mp h
    obtain ⟨hmem, hfamily⟩ := List.mem_filter.mp hrule
    rw [hrules, preset.configured_eq] at hmem
    obtain ⟨template, htemplate, rfl⟩ := List.mem_map.mp hmem
    rw [contribution, hseverity, withSeverity] at hissue
    split at hissue
    · rename_i hadmits
      have happlies := (Bool.and_eq_true_iff.mp hadmits).1
      have hconforms := template.conforms_build (Preset.mem_catalog htemplate)
      obtain ⟨kind, hkind, hfound, hfits⟩ := hconforms _ snippet happlies issue hissue
      exact ⟨kind, hkind.trans (beq_iff_eq.mp hfamily), hfound, hfits⟩
    · cases hissue

end Reviewer

/-- The rules of a review contribute issues of the kinds of their families. -/
theorem fits_of_mem_standard {snippet : Snippet} {family : Family} {issue : Issue}
    (h : issue ∈ Reviewer.standard.familyIssues snippet family) :
    ∃ kind : IssueKind, kind.family = family ∧ kind.isFoundIn snippet.dialect = true ∧
      issue.Fits kind snippet :=
  Reviewer.fits_of_mem_familyIssues Reviewer.rules_standard (fun _ => rfl) h

/-- Every issue of a review fits one of the kinds. -/
theorem exists_fits_of_mem_review {text : List Char} {dialect : Dialect} {issue : Issue}
    (h : issue ∈ (review text dialect).issues) :
    ∃ kind : IssueKind, issue.Fits kind ⟨text, dialect⟩ := by
  rw [review, Reviewer.issues_eq_familyIssues, List.mem_append, List.mem_append] at h
  rcases h with (h | h) | h <;>
    · obtain ⟨kind, -, -, hfits⟩ := fits_of_mem_standard h
      exact ⟨kind, hfits⟩

/-- **The kinds of issues in a review.**  A review lists issues of dialect rules, then those of
names, then smells; and each issue is of a kind of its family that is found in the dialect,
at the severity of that kind, and lacks a line exactly if it reports a missing terminator. -/
theorem review_kinds (text : List Char) (dialect : Dialect) :
    ∃ found : Family → List Issue,
      (review text dialect).issues = found .dialect ++ found .naming ++ found .smell ∧
      ∀ family, ∀ issue ∈ found family, ∃ kind : IssueKind,
        kind.family = family ∧ kind.isFoundIn dialect = true ∧
        issue.kind = kind.name ∧ issue.severity = kind.severity ∧
        (issue.line = none ↔
          issue.kind = "VBNet.MissingEndSub" ∨ issue.kind = "VBNet.MissingEndFunction") := by
  refine ⟨Reviewer.standard.familyIssues ⟨text, dialect⟩,
    Reviewer.standard.issues_eq_familyIssues text dialect, ?_⟩
  intro family issue hissue
  obtain ⟨kind, hfamily, hfound, hfits⟩ := fits_of_mem_standard hissue
  refine ⟨kind, hfamily, hfound, hfits.name, hfits.severity, ?_⟩
  rw [hfits.whole, hfits.name]
  exact kind.isWhole_iff

/-- A missing terminator, a short name and a repeated number, each from a family of its own. -/
theorem review_kinds_of_each_family :
    let issues := (review "Sub Init()\nDim x = 10\ny = 10\nz = 10".toList .vbnet).issues
    issues.map (fun issue => (issue.kind, issue.line, issue.severity)) =
        [("VBNet.MissingEndSub", none, .error), ("Naming.NonDescriptive", some 2, .info),
          ("Smell.RepeatedLiteral", some 2, .info)] ∧
      ∀ issue ∈ issues, ∃ kind : IssueKind, kind.isFoundIn .vbnet = true ∧
        issue.kind = kind.name ∧ issue.severity = kind.severity := by
  intro issues
  refine ⟨by decide +kernel, ?_⟩
  obtain ⟨found, hissues, hkinds⟩ :=
    review_kinds "Sub Init()\nDim x = 10\ny = 10\nz = 10".toList .vbnet
  intro issue hissue
  have hmem : ∃ family, issue ∈ found family := by
    rw [show issues = _ from hissues, List.mem_append, List.mem_append] at hissue
    rcases hissue with (h | h) | h <;> exact ⟨_, h⟩
  obtain ⟨family, hfamily⟩ := hmem
  obtain ⟨kind, -, hfound, hname, hseverity, -⟩ := hkinds family issue hfamily
  exact ⟨kind, hfound, hname, hseverity⟩

end LineLint
