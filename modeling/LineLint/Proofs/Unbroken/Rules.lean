import LineLint.Proofs.Layout.Lines
import LineLint.Proofs.Report.Kinds
import LineLint.Proofs.Unbroken.Names

/-!
# No line ends inside an issue

No line of the line table holds a character that ends lines
(`Text.isUnbroken_of_mem_lines`).  A rule puts its messages together from fixed
texts, numbers, and names or literals that are made of one line, so no line ends
inside of them either: all rules of the catalog are unbroken, whatever their
thresholds (`RuleTemplate.isUnbroken_build`).
-/
namespace LineLint

/-! ## Unbroken texts -/

namespace Text

/-- Whether no line ends inside a text. -/
structure IsUnbroken (text : List Char) : Prop where
  lf : '\n' ∉ text
  cr : '\r' ∉ text

theorem isUnbroken_iff {text : List Char} : IsUnbroken text ↔ '\n' ∉ text ∧ '\r' ∉ text :=
  ⟨fun h => ⟨h.lf, h.cr⟩, fun h => ⟨h.1, h.2⟩⟩

instance (text : List Char) : Decidable (IsUnbroken text) :=
  decidable_of_iff _ isUnbroken_iff.symm

theorem isUnbroken_nil : IsUnbroken [] := by
  decide

theorem isUnbroken_cons_iff {c : Char} {text : List Char} :
    IsUnbroken (c :: text) ↔ (c ≠ '\n' ∧ c ≠ '\r') ∧ IsUnbroken text := by
  simp only [isUnbroken_iff, List.mem_cons, not_or, ne_comm, ne_eq]
  tauto

theorem isUnbroken_append_iff {a b : List Char} :
    IsUnbroken (a ++ b) ↔ IsUnbroken a ∧ IsUnbroken b := by
  simp only [isUnbroken_iff, List.mem_append, not_or]
  tauto

theorem IsUnbroken.of_subset {a b : List Char} (hb : IsUnbroken b) (h : a ⊆ b) : IsUnbroken a :=
  ⟨fun ha => hb.lf (h ha), fun ha => hb.cr (h ha)⟩

/-- A fixed text is unbroken if its characters are.  The kernel takes the characters of a text
apart much faster than it reads them back from its bytes. -/
theorem isUnbroken_ofList {text : List Char} (h : IsUnbroken text) :
    IsUnbroken (String.ofList text).toList := by
  rwa [String.toList_ofList]

theorem isUnbroken_toString (n : Nat) : IsUnbroken (toString n).toList := by
  have hdigits : ∀ c ∈ (toString n).toList, c.isDigit = true := by
    intro c hc
    change c ∈ (Nat.repr n).toList at hc
    rw [Nat.toList_repr] at hc
    exact Nat.isDigit_of_mem_toDigits (by decide) (by decide) hc
  exact ⟨fun h => absurd (hdigits _ h) (by decide), fun h => absurd (hdigits _ h) (by decide)⟩

theorem isUnbroken_of_mem_rows (text : List Char) : ∀ row ∈ rows text, IsUnbroken row.line := by
  fun_induction rows text with
  | case1 => exact List.forall_mem_singleton.mpr isUnbroken_nil
  | case2 rest ih | case3 rest _ ih | case4 rest ih =>
    exact List.forall_mem_cons.mpr ⟨isUnbroken_nil, ih⟩
  | case5 c rest _ hcr hlf row more hrows ih =>
    rw [hrows] at ih
    obtain ⟨hrow, hmore⟩ := List.forall_mem_cons.mp ih
    exact List.forall_mem_cons.mpr ⟨isUnbroken_cons_iff.mpr ⟨⟨hlf, hcr⟩, hrow⟩, hmore⟩
  | case6 c rest _ _ _ hrows => exact absurd hrows (rows_ne_nil rest)

/-- No line ends inside a line. -/
theorem isUnbroken_of_mem_lines {text line : List Char} (h : line ∈ lines text) :
    IsUnbroken line := by
  obtain ⟨row, hrow, rfl⟩ := List.mem_map.mp h
  exact isUnbroken_of_mem_rows text row hrow

end Text

/-! ## Unbroken issues -/

/-- Whether no line ends inside the texts of an issue. -/
structure Issue.IsUnbroken (issue : Issue) : Prop where
  kind : Text.IsUnbroken issue.kind.toList
  message : Text.IsUnbroken issue.message.toList
  suggestion : Text.IsUnbroken issue.suggestion.toList

theorem Issue.isUnbroken_mk_iff {kind message suggestion : String} {line : Option Nat}
    {severity : Severity} :
    Issue.IsUnbroken ⟨kind, line, message, suggestion, severity⟩ ↔
      Text.IsUnbroken kind.toList ∧ Text.IsUnbroken message.toList ∧
        Text.IsUnbroken suggestion.toList :=
  ⟨fun h => ⟨h.kind, h.message, h.suggestion⟩, fun ⟨hk, hm, hs⟩ => ⟨hk, hm, hs⟩⟩

/-- An issue of fixed texts only. -/
theorem Issue.isUnbroken_of_fixed {kind message suggestion : List Char} {line : Option Nat}
    {severity : Severity} (h : Text.IsUnbroken (kind ++ message ++ suggestion)) :
    Issue.IsUnbroken ⟨String.ofList kind, line, String.ofList message, String.ofList suggestion,
      severity⟩ := by
  obtain ⟨h, hsuggestion⟩ := Text.isUnbroken_append_iff.mp h
  obtain ⟨hkind, hmessage⟩ := Text.isUnbroken_append_iff.mp h
  exact ⟨Text.isUnbroken_ofList hkind, Text.isUnbroken_ofList hmessage,
    Text.isUnbroken_ofList hsuggestion⟩

theorem Snippet.isUnbroken_of_mem_numberedLines {snippet : Snippet} {numbered : List Char × Nat}
    (h : numbered ∈ snippet.numberedLines) : Text.IsUnbroken numbered.1 :=
  Text.isUnbroken_of_mem_lines (List.fst_mem_of_mem_zipIdx h)

/-- The name of a block is made of one line. -/
theorem Snippet.isUnbroken_name {snippet : Snippet} (kind : Code.BlockKind) {block : Code.Block}
    (h : block ∈ kind.blocks snippet.lines) : Text.IsUnbroken block.name := by
  obtain ⟨line, hline, hname⟩ := kind.exists_name_subset h
  exact (Text.isUnbroken_of_mem_lines hline).of_subset hname

namespace Rule

/-- Whether no line ends inside the issues that a rule finds. -/
def IsUnbroken (rule : Rule) : Prop :=
  ∀ snippet : Snippet, ∀ issue ∈ rule.check snippet, issue.IsUnbroken

/-- A rule for single lines is unbroken if the issues that it makes are. -/
theorem isUnbroken_lineCheck (check : LineCheck)
    (h : ∀ number line, (check.issue number line).IsUnbroken) : check.rule.IsUnbroken := by
  intro snippet issue hissue
  obtain ⟨numbered, -, -, rfl⟩ := LineCheck.mem_check_iff.mp hissue
  exact h numbered.2 numbered.1

open Text

/-! ## Dialect rules -/

theorem isUnbroken_longLine (maxLength : Nat) (severity : Severity) :
    (longLine maxLength severity).IsUnbroken := by
  refine isUnbroken_lineCheck _ fun number line => Issue.isUnbroken_mk_iff.mpr ?_
  simp only [String.toList_append, isUnbroken_append_iff, isUnbroken_toString, and_true]
  and_intros <;> exact isUnbroken_ofList (by decide)

theorem isUnbroken_noLock : noLock.IsUnbroken := by
  refine isUnbroken_lineCheck _ fun _ _ => Issue.isUnbroken_mk_iff.mpr ?_
  simp only [String.toList_append, isUnbroken_append_iff]
  and_intros <;> exact isUnbroken_ofList (by decide)

theorem isUnbroken_spelled (n : Nat) : Text.IsUnbroken (spelled n).toList := by
  rw [spelled]
  cases hword : (["zero", "one", "two", "three", "four", "five", "six", "seven", "eight", "nine",
    "ten"][n]?) with
  | none => exact isUnbroken_toString n
  | some word =>
    have hwords : ∀ word ∈ ["zero", "one", "two", "three", "four", "five", "six", "seven",
        "eight", "nine", "ten"], Text.IsUnbroken word.toList := by
      simp only [List.forall_mem_cons, List.not_mem_nil, false_imp_iff, implies_true, and_true]
      and_intros <;> exact isUnbroken_ofList (by decide)
    exact hwords word (List.mem_of_getElem? hword)

theorem isUnbroken_nestedIfs (maxIfs : Nat) : (nestedIfs maxIfs).IsUnbroken := by
  intro snippet issue hissue
  obtain ⟨block, -, rfl⟩ := List.mem_map.mp hissue
  refine Issue.isUnbroken_mk_iff.mpr ?_
  simp only [String.toList_append, isUnbroken_append_iff, isUnbroken_toString,
    isUnbroken_spelled, and_true]
  and_intros <;> exact isUnbroken_ofList (by decide)

theorem isUnbroken_missingEnd : missingEnd.IsUnbroken := by
  intro snippet issue hissue
  obtain ⟨kind, -, rfl⟩ := List.mem_map.mp hissue
  cases kind <;> exact Issue.isUnbroken_of_fixed (by decide)

/-! ## Names -/

/-- A fixed text that quotes an unbroken one. -/
theorem isUnbroken_quoting {name : List Char} (hname : Text.IsUnbroken name) {front back : String}
    (hfixed : Text.IsUnbroken front.toList ∧ Text.IsUnbroken back.toList) :
    Text.IsUnbroken (front ++ String.ofList name ++ back).toList := by
  simpa only [String.toList_append, isUnbroken_append_iff, String.toList_ofList, hname, and_true]
    using hfixed

theorem isUnbroken_message {name : List Char} (hname : Text.IsUnbroken name)
    (fault : Naming.Fault) : Text.IsUnbroken (fault.message (String.ofList name)).toList := by
  cases fault with
  | startsWithDigit | shortCallable | shortVariable | generic =>
    exact isUnbroken_quoting hname ⟨isUnbroken_ofList (by decide), isUnbroken_ofList (by decide)⟩

theorem isUnbroken_suggestion (snippet : Snippet) :
    Text.IsUnbroken (Naming.suggestion snippet).toList := by
  have hbase : Text.IsUnbroken Naming.baseSuggestion.toList := isUnbroken_ofList (by decide)
  have happend {more : String} (hmore : Text.IsUnbroken more.toList) :
      Text.IsUnbroken (Naming.baseSuggestion ++ more).toList := by
    rw [String.toList_append]
    exact isUnbroken_append_iff.mpr ⟨hbase, hmore⟩
  rw [Naming.suggestion]
  split
  · split
    · exact happend (isUnbroken_ofList (by decide))
    · split
      · exact happend (isUnbroken_ofList (by decide))
      · exact hbase
  · exact hbase
  · split
    · exact happend (isUnbroken_ofList (by decide))
    · exact hbase

theorem isUnbroken_nonDescriptiveNames : nonDescriptiveNames.IsUnbroken := by
  intro snippet issue hissue
  obtain ⟨found, hfound, hissue⟩ := List.mem_flatMap.mp hissue
  obtain ⟨numbered, hnumbered, hfound⟩ := List.mem_flatMap.mp hfound
  obtain ⟨named, hnamed, rfl⟩ := List.mem_map.mp hfound
  obtain ⟨fault, -, rfl⟩ := List.mem_map.mp hissue
  have hname : Text.IsUnbroken named.1 :=
    (Snippet.isUnbroken_of_mem_numberedLines hnumbered).of_subset
      (Naming.subset_of_mem_lineNames hnamed)
  exact Issue.isUnbroken_mk_iff.mpr
    ⟨isUnbroken_ofList (by decide), isUnbroken_message hname fault, isUnbroken_suggestion snippet⟩

/-! ## Smells -/

theorem isUnbroken_deepCodeIssue (maxDepth : Nat) {block : Code.Block}
    (hname : Text.IsUnbroken block.name) : (deepCodeIssue maxDepth block).IsUnbroken := by
  refine Issue.isUnbroken_mk_iff.mpr ?_
  simp only [String.toList_append, isUnbroken_append_iff, isUnbroken_toString,
    String.toList_ofList, hname, and_true]
  and_intros <;> exact isUnbroken_ofList (by decide)

theorem isUnbroken_deepBatchIssue (maxDepth : Nat) {block : Code.Block}
    (hname : Text.IsUnbroken block.name) : (deepBatchIssue maxDepth block).IsUnbroken := by
  refine Issue.isUnbroken_mk_iff.mpr ?_
  split <;>
    · simp only [String.toList_append, isUnbroken_append_iff, isUnbroken_toString,
        String.toList_ofList, hname, and_true]
      and_intros <;> exact isUnbroken_ofList (by decide)

theorem isUnbroken_name_proceduresOrBatch {snippet : Snippet} {block : Code.Block}
    (h : block ∈ proceduresOrBatch snippet.lines) : Text.IsUnbroken block.name := by
  rw [proceduresOrBatch] at h
  split at h
  · rw [List.mem_singleton.mp h]
    exact isUnbroken_nil
  · exact Snippet.isUnbroken_name .sqlProcedure h

theorem isUnbroken_deepNesting (maxDepth : Nat) : (deepNesting maxDepth).IsUnbroken := by
  rintro ⟨text, dialect⟩ issue hissue
  cases dialect with
  | csharp =>
    obtain ⟨block, hblock, rfl⟩ := List.mem_map.mp hissue
    exact isUnbroken_deepCodeIssue maxDepth
      (Snippet.isUnbroken_name .csharpMethod (List.mem_filter.mp hblock).1)
  | vbnet =>
    obtain ⟨block, hblock, rfl⟩ := List.mem_map.mp hissue
    exact isUnbroken_deepCodeIssue maxDepth
      (Snippet.isUnbroken_name .vbnetProcedure (List.mem_filter.mp hblock).1)
  | sql =>
    obtain ⟨block, hblock, rfl⟩ := List.mem_map.mp hissue
    exact isUnbroken_deepBatchIssue maxDepth
      (isUnbroken_name_proceduresOrBatch (List.mem_filter.mp hblock).1)
  | unknown => cases hissue

theorem name_subset_of_callableHeader? {dialect : Dialect} {line : List Char}
    {header : Code.Header} (h : callableHeader? dialect line = some header) :
    header.name ⊆ line := by
  cases dialect with
  | csharp => exact Code.CSharp.name_subset_of_methodHeader? h
  | vbnet =>
    obtain ⟨found, hfound, rfl⟩ := Option.map_eq_some_iff.mp h
    exact Code.VisualBasic.name_subset_of_procedureHeader? hfound
  | sql => exact Code.TransactSql.name_subset_of_procedureHeader? h
  | unknown => cases h

theorem isUnbroken_longParameterList (maxParams : Nat) :
    (longParameterList maxParams).IsUnbroken := by
  rintro ⟨text, dialect⟩ issue hissue
  obtain ⟨numbered, hnumbered, hissue⟩ := List.mem_filterMap.mp hissue
  rw [longParamsIssue?] at hissue
  split at hissue
  · cases hissue
  · next header hheader =>
    have hname : Text.IsUnbroken header.name :=
      (Snippet.isUnbroken_of_mem_numberedLines hnumbered).of_subset
        (name_subset_of_callableHeader? hheader)
    split at hissue
    · cases hissue
    · split at hissue
      · rw [← Option.some.inj hissue]
        refine Issue.isUnbroken_mk_iff.mpr ?_
        simp only [String.toList_append, isUnbroken_append_iff, isUnbroken_toString,
          String.toList_ofList, hname, and_true]
        cases dialect <;> (and_intros <;> exact isUnbroken_ofList (by decide))
      · cases hissue

theorem isUnbroken_largeClassIssue {block : Code.Block} (hname : Text.IsUnbroken block.name) :
    (largeClassIssue block).IsUnbroken := by
  refine Issue.isUnbroken_mk_iff.mpr ?_
  simp only [String.toList_append, isUnbroken_append_iff, isUnbroken_toString,
    String.toList_ofList, hname, and_true]
  and_intros <;> exact isUnbroken_ofList (by decide)

theorem isUnbroken_largeProcedureIssue {block : Code.Block}
    (hname : Text.IsUnbroken block.name) : (largeProcedureIssue block).IsUnbroken := by
  refine Issue.isUnbroken_mk_iff.mpr ?_
  simp only [String.toList_append, isUnbroken_append_iff, isUnbroken_toString,
    String.toList_ofList, hname, and_true]
  and_intros <;> exact isUnbroken_ofList (by decide)

theorem isUnbroken_largeStructure (maxLines maxMethods : Nat) :
    (largeStructure maxLines maxMethods).IsUnbroken := by
  rintro ⟨text, dialect⟩ issue hissue
  cases dialect with
  | csharp =>
    obtain ⟨block, hblock, rfl⟩ := List.mem_map.mp hissue
    exact isUnbroken_largeClassIssue
      (Snippet.isUnbroken_name .csharpClass (List.mem_filter.mp hblock).1)
  | vbnet =>
    obtain ⟨block, hblock, rfl⟩ := List.mem_map.mp hissue
    exact isUnbroken_largeClassIssue
      (Snippet.isUnbroken_name .vbnetClass (List.mem_filter.mp hblock).1)
  | sql =>
    obtain ⟨block, hblock, rfl⟩ := List.mem_map.mp hissue
    exact isUnbroken_largeProcedureIssue
      (Snippet.isUnbroken_name .sqlProcedure (List.mem_filter.mp hblock).1)
  | unknown => cases hissue

theorem isUnbroken_repeatedLiteral (minLines : Nat) : (repeatedLiteral minLines).IsUnbroken := by
  intro snippet issue hissue
  obtain ⟨first, hfirst, rfl⟩ := List.mem_map.mp hissue
  have hsublist := Literal.firstOccurrences_sublist [] (Literal.occurrences snippet)
  have hmem := hsublist.subset (List.mem_filter.mp hfirst).1
  obtain ⟨numbered, hnumbered, hoccurs⟩ := List.mem_flatMap.mp hmem
  obtain ⟨literal, hliteral, rfl⟩ := List.mem_map.mp hoccurs
  have hspelling : Text.IsUnbroken literal.2 :=
    (Snippet.isUnbroken_of_mem_numberedLines hnumbered).of_subset
      (Literal.subset_of_mem_onLine hliteral)
  refine Issue.isUnbroken_mk_iff.mpr ?_
  simp only [String.toList_append, isUnbroken_append_iff, isUnbroken_toString,
    String.toList_ofList, hspelling, and_true]
  and_intros <;> exact isUnbroken_ofList (by decide)

end Rule

/-- **No line ends inside the issues of a rule of the catalog**, whatever its thresholds. -/
theorem RuleTemplate.isUnbroken_build {template : RuleTemplate}
    (h : template ∈ Catalog.templates) (get : String → Nat → Nat) :
    (template.build get).IsUnbroken := by
  simp only [Catalog.templates, List.mem_cons, List.not_mem_nil, or_false] at h
  rcases h with rfl | rfl | rfl | rfl | rfl | rfl | rfl | rfl | rfl | rfl | rfl | rfl | rfl
  · exact Rule.isUnbroken_longLine _ _
  · exact Rule.isUnbroken_lineCheck _ fun _ _ => Issue.isUnbroken_of_fixed (by decide)
  · exact Rule.isUnbroken_nestedIfs _
  · exact Rule.isUnbroken_lineCheck _ fun _ _ => Issue.isUnbroken_of_fixed (by decide)
  · exact Rule.isUnbroken_missingEnd
  · exact Rule.isUnbroken_lineCheck _ fun _ _ => Issue.isUnbroken_of_fixed (by decide)
  · exact Rule.isUnbroken_lineCheck _ fun _ _ => Issue.isUnbroken_of_fixed (by decide)
  · exact Rule.isUnbroken_noLock
  · exact Rule.isUnbroken_nonDescriptiveNames
  · exact Rule.isUnbroken_deepNesting _
  · exact Rule.isUnbroken_longParameterList _
  · exact Rule.isUnbroken_largeStructure _ _
  · exact Rule.isUnbroken_repeatedLiteral _

end LineLint
