import LineLint.Proofs.Review.Views

/-! # The order of issues of one kind

Issues are never sorted, and yet those of one kind come line by line.  A rule that
looks at lines or at blocks goes through them in order, blocks lie apart from each
other, and so do their first lines and their last lines
(`Code.BlockKind.pairwise_starts`, `Code.BlockKind.pairwise_stops`).  Names and
literals are gathered line by line, several from a line, and the first occurrences of
literals are in the order of all occurrences (`Literal.firstOccurrences_sublist`).

`Issue.Precedes` says this of two issues of a report.  Every rule of the catalog
finds issues in this order (`RuleTemplate.inLineOrder_build`), and no two rules find
issues of the same kind, so every report has it (`Reviewer.pairwise_precedes`).
-/
namespace LineLint

/-- Whether one line may have several issues of a kind, one for each name or each literal. -/
def Issue.SharesLines (kind : String) : Prop :=
  kind = "Naming.NonDescriptive" ∨ kind = "Smell.RepeatedLiteral"

/-- Whether an issue may come in front of another in a report: if they are of one kind and have
lines, its line must not be behind that of the other, nor be the same if a line has one issue of
the kind at most. -/
def Issue.Precedes (a b : Issue) : Prop :=
  a.kind = b.kind → ∀ m n, a.line = some m → b.line = some n →
    m ≤ n ∧ (¬ SharesLines a.kind → m < n)

namespace Issue
variable {a b : Issue}

theorem Precedes.of_kind_ne (h : a.kind ≠ b.kind) : a.Precedes b :=
  fun hkind => absurd hkind h

theorem Precedes.of_lines {m n : Nat} (ha : a.line = some m) (hb : b.line = some n)
    (h : m ≤ n ∧ (¬ SharesLines a.kind → m < n)) : a.Precedes b := by
  intro _ m' n' hm hn
  obtain rfl : m = m' := Option.some.inj (ha.symm.trans hm)
  obtain rfl : n = n' := Option.some.inj (hb.symm.trans hn)
  exact h

theorem Precedes.of_lt {m n : Nat} (ha : a.line = some m) (hb : b.line = some n) (h : m < n) :
    a.Precedes b :=
  .of_lines ha hb ⟨Nat.le_of_lt h, fun _ => h⟩

theorem Precedes.of_le {m n : Nat} (hshares : SharesLines a.kind) (ha : a.line = some m)
    (hb : b.line = some n) (h : m ≤ n) : a.Precedes b :=
  .of_lines ha hb ⟨h, fun hnot => absurd hshares hnot⟩

end Issue

/-! ## Places in order -/

theorem Snippet.pairwise_numberedLines (snippet : Snippet) :
    snippet.numberedLines.Pairwise fun numbered later => numbered.2 < later.2 := by
  rw [← List.pairwise_map (f := Prod.snd) (R := (· < ·)), numberedLines, List.zipIdx_map_snd]
  exact List.pairwise_lt_range'

namespace Code.BlockKind
variable (kind : BlockKind) (lines : List (List Char))

/-- Of two blocks of a kind, the one found first stops before the other starts. -/
theorem pairwise_apart :
    (kind.blocks lines).Pairwise fun block later =>
      block.start ≤ block.stop ∧ block.stop < later.start ∧ later.start ≤ later.stop := by
  have harranged := kind.lawful.arranged_blocksFrom 1 0 lines
  rw [kind.blocks_eq]
  refine harranged.apart.imp_of_mem ?_
  intro block later hblock hlater hapart
  exact ⟨harranged.start_le block hblock, hapart, harranged.start_le later hlater⟩

/-- Blocks start one behind the other. -/
theorem pairwise_starts :
    (kind.blocks lines).Pairwise fun block later => block.start < later.start := by
  refine (kind.pairwise_apart lines).imp ?_
  rintro block later ⟨hle, hlt, -⟩
  omega

/-- Blocks stop one behind the other. -/
theorem pairwise_stops :
    (kind.blocks lines).Pairwise fun block later => block.stop < later.stop := by
  refine (kind.pairwise_apart lines).imp ?_
  rintro block later ⟨-, hlt, hle⟩
  omega

end Code.BlockKind

/-- What is gathered from things in order, each time at the place of the thing, is in order. -/
theorem pairwise_le_flatMap {α β : Type} {place : α → Nat} {place' : β → Nat} {l : List α}
    {gather : α → List β} (h : l.Pairwise fun a b => place a ≤ place b)
    (hgather : ∀ a, ∀ found ∈ gather a, place' found = place a) :
    (l.flatMap gather).Pairwise fun found later => place' found ≤ place' later := by
  rw [List.pairwise_flatMap]
  constructor
  · intro a _
    refine List.pairwise_of_forall_mem_list ?_
    intro found hfound later hlater
    exact Nat.le_of_eq ((hgather a found hfound).trans (hgather a later hlater).symm)
  · refine h.imp ?_
    intro a b hab found hfound later hlater
    rw [hgather a found hfound, hgather b later hlater]
    exact hab

theorem Naming.pairwise_foundIn (snippet : Snippet) :
    (foundIn snippet).Pairwise fun found later => found.line ≤ later.line := by
  refine pairwise_le_flatMap (snippet.pairwise_numberedLines.imp Nat.le_of_lt) ?_
  intro numbered found hfound
  obtain ⟨named, -, rfl⟩ := List.mem_map.mp hfound
  rfl

theorem Literal.pairwise_occurrences (snippet : Snippet) :
    (occurrences snippet).Pairwise fun occurrence later => occurrence.line ≤ later.line := by
  refine pairwise_le_flatMap (snippet.pairwise_numberedLines.imp Nat.le_of_lt) ?_
  intro numbered occurrence hoccurrence
  obtain ⟨literal, -, rfl⟩ := List.mem_map.mp hoccurrence
  rfl

namespace Rule

/-- Whether the issues that a rule finds come in the order of their lines. -/
def InLineOrder (rule : Rule) : Prop :=
  ∀ snippet, (rule.check snippet).Pairwise Issue.Precedes

/-- One issue for some of the things in strict order, each at the place of its thing. -/
theorem pairwise_precedes_map {α : Type} {place : α → Nat} {make : α → Issue} {l : List α}
    (h : l.Pairwise fun a b => place a < place b) (isBad : α → Bool)
    (hmake : ∀ a, (make a).line = some (place a)) :
    ((l.filter isBad).map make).Pairwise Issue.Precedes := by
  rw [List.pairwise_map]
  refine (h.filter isBad).imp ?_
  intro a b hlt
  exact .of_lt (hmake a) (hmake b) hlt

/-! ## Dialect rules -/

/-- A rule for single lines goes through the lines in order. -/
theorem inLineOrder_lineCheck (check : LineCheck) : check.rule.InLineOrder :=
  fun snippet => pairwise_precedes_map snippet.pairwise_numberedLines _ fun _ => rfl

theorem inLineOrder_nestedIfs (maxIfs : Nat) : (nestedIfs maxIfs).InLineOrder := by
  intro snippet
  have hstops := Code.BlockKind.csharpMethod.pairwise_stops snippet.lines
  exact pairwise_precedes_map hstops _ fun _ => rfl

theorem inLineOrder_missingEnd : missingEnd.InLineOrder := by
  intro snippet
  -- no issue has a line
  rw [missingEnd, List.pairwise_map]
  refine List.pairwise_of_forall ?_
  intro a b _ m n hline
  cases a <;> cases hline

/-! ## Names -/

theorem inLineOrder_nonDescriptiveNames : nonDescriptiveNames.InLineOrder := by
  intro snippet
  rw [nonDescriptiveNames, List.pairwise_flatMap]
  have hissue : ∀ found, ∀ issue ∈
      Naming.issuesFor (Naming.countersOf snippet) (Naming.suggestion snippet) found,
      Issue.SharesLines issue.kind ∧ issue.line = some found.line := by
    intro found issue hmem
    obtain ⟨fault, -, rfl⟩ := List.mem_map.mp hmem
    exact ⟨Or.inl rfl, rfl⟩
  constructor
  · intro found _
    apply List.pairwise_of_forall_mem_list
    intro a ha b hb
    obtain ⟨hshares, haline⟩ := hissue found a ha
    exact .of_le hshares haline (hissue found b hb).2 (Nat.le_refl _)
  · refine (Naming.pairwise_foundIn snippet).imp ?_
    intro found later hle a ha b hb
    obtain ⟨hshares, haline⟩ := hissue found a ha
    exact .of_le hshares haline (hissue later b hb).2 hle

/-! ## Smells -/

theorem pairwise_starts_proceduresOrBatch (lines : List (List Char)) :
    (proceduresOrBatch lines).Pairwise fun block later => block.start < later.start := by
  rw [proceduresOrBatch]
  split
  · exact List.pairwise_singleton _ _
  · exact Code.BlockKind.sqlProcedure.pairwise_starts lines

theorem inLineOrder_deepNesting (maxDepth : Nat) : (deepNesting maxDepth).InLineOrder := by
  rintro ⟨text, dialect⟩
  have hstarts := fun kind : Code.BlockKind => kind.pairwise_starts (Text.lines text)
  cases dialect with
  | csharp => exact pairwise_precedes_map (hstarts .csharpMethod) _ fun _ => rfl
  | vbnet => exact pairwise_precedes_map (hstarts .vbnetProcedure) _ fun _ => rfl
  | sql =>
    exact pairwise_precedes_map (pairwise_starts_proceduresOrBatch (Text.lines text)) _ fun _ => rfl
  | unknown => exact List.Pairwise.nil

theorem inLineOrder_longParameterList (maxParams : Nat) :
    (longParameterList maxParams).InLineOrder := by
  intro snippet
  refine List.pairwise_filterMap.mpr (snippet.pairwise_numberedLines.imp ?_)
  intro numbered later hlt a ha b hb
  have haline := congrArg (·.2.2) (eq_of_longParamsIssue? ha)
  have hbline := congrArg (·.2.2) (eq_of_longParamsIssue? hb)
  exact .of_lt haline hbline hlt

theorem inLineOrder_largeStructure (maxLines maxMethods : Nat) :
    (largeStructure maxLines maxMethods).InLineOrder := by
  rintro ⟨text, dialect⟩
  have hstarts := fun kind : Code.BlockKind => kind.pairwise_starts (Text.lines text)
  cases dialect with
  | csharp => exact pairwise_precedes_map (hstarts .csharpClass) _ fun _ => rfl
  | vbnet => exact pairwise_precedes_map (hstarts .vbnetClass) _ fun _ => rfl
  | sql => exact pairwise_precedes_map (hstarts .sqlProcedure) _ fun _ => rfl
  | unknown => exact List.Pairwise.nil

theorem inLineOrder_repeatedLiteral (minLines : Nat) :
    (repeatedLiteral minLines).InLineOrder := by
  intro snippet
  have hfirst := (Literal.pairwise_occurrences snippet).sublist
    (Literal.firstOccurrences_sublist [] (Literal.occurrences snippet))
  rw [repeatedLiteral, List.pairwise_map]
  refine (hfirst.filter _).imp ?_
  intro first later hle
  exact .of_le (Or.inr rfl) rfl rfl hle

end Rule

namespace RuleTemplate
variable {template : RuleTemplate}

/-- **Every rule of the catalog finds its issues line by line**, whatever its thresholds. -/
theorem inLineOrder_build (h : template ∈ Catalog.templates) (get : String → Nat → Nat) :
    (template.build get).InLineOrder := by
  simp only [Catalog.templates, List.mem_cons, List.not_mem_nil, or_false] at h
  rcases h with rfl | rfl | rfl | rfl | rfl | rfl | rfl | rfl | rfl | rfl | rfl | rfl | rfl
  · exact Rule.inLineOrder_lineCheck _
  · exact Rule.inLineOrder_lineCheck _
  · exact Rule.inLineOrder_nestedIfs _
  · exact Rule.inLineOrder_lineCheck _
  · exact Rule.inLineOrder_missingEnd
  · exact Rule.inLineOrder_lineCheck _
  · exact Rule.inLineOrder_lineCheck _
  · exact Rule.inLineOrder_lineCheck _
  · exact Rule.inLineOrder_nonDescriptiveNames
  · exact Rule.inLineOrder_deepNesting _
  · exact Rule.inLineOrder_longParameterList _
  · exact Rule.inLineOrder_largeStructure _ _
  · exact Rule.inLineOrder_repeatedLiteral _

/-- A segment is in the order of its rule, at whatever severity. -/
theorem pairwise_precedes_segment (h : template ∈ Catalog.templates) (settings : RuleSettings)
    (snippet : Snippet) : (template.segment settings snippet).Pairwise Issue.Precedes := by
  have horder := template.inLineOrder_build h settings.threshold snippet
  unfold segment
  by_cases hruns : (settings.enabled.getD true && !snippet.isBlank) = true
  · rw [if_pos hruns, emission]
    cases settings.severity with
    | none => exact horder
    | some severity => exact List.pairwise_map.mpr horder
  · rw [if_neg hruns]
    exact List.Pairwise.nil

/-- Different rules find issues of different kinds. -/
theorem kind_ne_of_name_ne {other : RuleTemplate} (h : template ∈ Catalog.templates)
    (hother : other ∈ Catalog.templates) (hne : template.name ≠ other.name)
    {settings settings' : RuleSettings} {snippet : Snippet} {a b : Issue}
    (ha : a ∈ template.segment settings snippet) (hb : b ∈ other.segment settings' snippet) :
    a.kind ≠ b.kind := by
  obtain ⟨kind, hrule, hkind⟩ := template.exists_kind_of_mem_segment h ha
  obtain ⟨kind', hrule', hkind'⟩ := other.exists_kind_of_mem_segment hother hb
  intro heq
  obtain rfl : kind = kind' := IssueKind.eq_of_name_eq (hkind.symm.trans (heq.trans hkind'))
  exact hne (hrule.symm.trans hrule')

end RuleTemplate

/-- **Reports list the issues of each kind line by line**, under any configuration. -/
theorem Reviewer.pairwise_precedes {reviewer : Reviewer} {preset : Preset}
    (hrules : reviewer.rules = preset.configured reviewer.config) (text : List Char)
    (dialect : Dialect) :
    (reviewer.review text dialect).issues.Pairwise Issue.Precedes := by
  have hcatalog : ∀ template ∈ preset.applicable dialect, template ∈ Catalog.templates :=
    fun _ htemplate => Preset.mem_catalog (List.mem_filter.mp htemplate).1
  rw [issues_eq_segments hrules, List.pairwise_flatMap]
  constructor
  · intro template htemplate
    exact template.pairwise_precedes_segment (hcatalog template htemplate) _ _
  · have hnames := List.pairwise_map.mp (preset.nodup_applicable dialect)
    refine hnames.imp_of_mem ?_
    intro template other htemplate hother hne a ha b hb
    exact .of_kind_ne (template.kind_ne_of_name_ne (hcatalog template htemplate)
      (hcatalog other hother) hne ha hb)

namespace Report
variable {report : Report}

/-- In a report with its issues in order, the issues of a kind have their lines in order. -/
theorem pairwise_lines (h : report.issues.Pairwise Issue.Precedes) (kind : String) :
    ((report.ofKind kind).filterMap Issue.line).Pairwise fun m n =>
      m ≤ n ∧ (¬ Issue.SharesLines kind → m < n) := by
  refine List.pairwise_filterMap.mpr ((h.filter _).imp_of_mem ?_)
  intro a b ha hb hab m hm n hn
  have hakind : a.kind = kind := beq_iff_eq.mp (List.mem_filter.mp ha).2
  have hbkind : b.kind = kind := beq_iff_eq.mp (List.mem_filter.mp hb).2
  rw [← hakind]
  exact hab (hakind.trans hbkind.symm) m n hm hn

/-- A line has one issue at most of a kind whose lines are in strict order. -/
theorem countP_line_le_one {kind : String}
    (h : ((report.ofKind kind).filterMap Issue.line).Pairwise (· < ·)) (number : Nat) :
    (report.ofKind kind).countP (fun issue => issue.line == some number) ≤ 1 := by
  have hnodup : ((report.ofKind kind).filterMap Issue.line).Nodup := h.imp Nat.ne_of_lt
  rw [← List.count_filterMap]
  exact List.nodup_iff_count_le_one.mp hnodup number

end Report

/-- **The issues of each kind come line by line.**  In every review, the lines of the issues of
any one kind are in order, and in strict order unless the kind is that of names or of
literals; so a line has one issue at most of each of the other kinds. -/
theorem review_in_line_order (text : List Char) (dialect : Dialect) (kind : String) :
    let issues := (review text dialect).ofKind kind
    (issues.filterMap Issue.line).Pairwise (· ≤ ·) ∧
      (kind ≠ "Naming.NonDescriptive" → kind ≠ "Smell.RepeatedLiteral" →
        (issues.filterMap Issue.line).Pairwise (· < ·) ∧
        ∀ number, issues.countP (fun issue => issue.line == some number) ≤ 1) := by
  intro issues
  have horder : (review text dialect).issues.Pairwise Issue.Precedes :=
    Reviewer.pairwise_precedes Reviewer.rules_standard text dialect
  have hlines := Report.pairwise_lines horder kind
  constructor
  · exact hlines.imp fun hmn => hmn.1
  · intro hnaming hliteral
    have hkind : ¬ Issue.SharesLines kind := by
      rintro (h | h)
      · exact hnaming h
      · exact hliteral h
    have hstrict := hlines.imp fun hmn => hmn.2 hkind
    exact ⟨hstrict, Report.countP_line_le_one hstrict⟩

/-- Names that are too short, two of them on one line, and a mark on each of two lines. -/
theorem review_in_line_order_beside_names :
    let report := review "int a; int b; // TODO\nint c; // todo".toList .csharp
    (report.ofKind "Naming.NonDescriptive").map Issue.line = [some 1, some 1, some 2] ∧
      ((report.ofKind "CSharp.TODO").filterMap Issue.line).Pairwise (· < ·) ∧
      (report.ofKind "CSharp.TODO").map Issue.line = [some 1, some 2] := by
  intro report
  have hnames : (report.ofKind "Naming.NonDescriptive").map Issue.line =
      [some 1, some 1, some 2] := by
    decide
  have htodos : (report.ofKind "CSharp.TODO").map Issue.line = [some 1, some 2] := by
    decide
  obtain ⟨-, hstrict⟩ :=
    review_in_line_order "int a; int b; // TODO\nint c; // todo".toList .csharp "CSharp.TODO"
  exact ⟨hnames, (hstrict (by decide) (by decide)).1, htodos⟩

end LineLint
