import LineLint.Proofs.Pattern.Stretches
import LineLint.Proofs.Unbroken.Names
import Mathlib.Algebra.Order.BigOperators.Group.List
import Mathlib.Algebra.Order.Group.Nat

/-! # At most one finding for a name

All names that are gathered from a text are identifiers (`Naming.isIdentifier_of_mem_foundIn`), so none
of them starts with a digit, and the message for such names is never written.

The other checks of a name are made one after the other, but they exclude each other: a name is
something callable or a variable, and what is too short for either is shorter than every generic name
(`Naming.length_le_of_isGeneric`).  So a name has one fault at most, and no more is reported than
there are names (`Naming.findings_of_names`).
-/
namespace LineLint

open Pattern

/-! ## Names are identifiers -/

namespace Code

theorem CSharp.isIdentifier_of_mem_methodHeaders {line : List Char} {header : Header}
    (h : header ∈ methodHeaders line) : IsIdentifier header.name := by
  have hnames : methodPattern.NamesAll IsNamed := by simp [methodPattern]
  obtain ⟨m, hm, rfl⟩ := List.mem_map.mp h
  have hname := (found_of_mem_allMatches (List.mem_filter.mp hm).1).isIdentifier_name hnames rfl
  rw [headerOf]
  split <;> exact hname

theorem VisualBasic.isIdentifier_of_procedureHeader? {line : List Char}
    {found : ProcedureKind × Header} (h : procedureHeader? line = some found) :
    IsIdentifier found.2.name := by
  have hnames : procedurePattern.NamesAll IsNamed := by simp [procedurePattern]
  obtain ⟨m, hm, rfl⟩ := Option.map_eq_some_iff.mp h
  exact (found_of_find? hm).isIdentifier_name hnames rfl

theorem TransactSql.isIdentifier_of_procedureHeader? {line : List Char} {header : Header}
    (h : procedureHeader? line = some header) : IsIdentifier header.name := by
  have hnames : procedurePattern.NamesAll IsNamed := by simp [procedurePattern]
  obtain ⟨m, hm, rfl⟩ := Option.map_eq_some_iff.mp h
  exact (found_of_find? hm).isIdentifier_name hnames rfl

end Code

namespace Naming

open Code

theorem isIdentifier_of_mem_csharpNames {line : List Char} {named : List Char × Role}
    (h : named ∈ csharpNames line) : IsIdentifier named.1 := by
  have hnames : variablePattern.NamesAll IsNamed := by simp [variablePattern, variableType]
  rcases List.mem_append.mp h with h | h
  · obtain ⟨header, hheader, rfl⟩ := List.mem_map.mp h
    exact CSharp.isIdentifier_of_mem_methodHeaders hheader
  · obtain ⟨m, hm, rfl⟩ := List.mem_map.mp h
    exact (found_of_mem_allMatches (List.mem_filter.mp hm).1).isIdentifier_name hnames rfl

theorem isIdentifier_of_mem_vbnetNames {line : List Char} {named : List Char × Role}
    (h : named ∈ vbnetNames line) : IsIdentifier named.1 := by
  have hnames : dimPattern.NamesAll IsNamed := by simp [dimPattern]
  rcases List.mem_append.mp h with h | h
  · obtain ⟨header, hheader, rfl⟩ := List.mem_map.mp h
    exact VisualBasic.isIdentifier_of_procedureHeader? (Option.mem_toList.mp hheader)
  · obtain ⟨m, hm, rfl⟩ := List.mem_map.mp h
    exact (found_of_mem_allMatches hm).isIdentifier_name hnames rfl

theorem isIdentifier_of_mem_aliases {code name : List Char} (h : name ∈ aliases code) :
    IsIdentifier name := by
  have htable : tableAliasPattern.NamesAll IsNamed := by simp [tableAliasPattern]
  have has : asAliasPattern.NamesAll IsNamed := by simp [asAliasPattern]
  have hname := (List.mem_filter.mp (mem_of_mem_dedupIgnoringCase h)).1
  obtain ⟨m, hm, rfl⟩ := List.mem_map.mp hname
  rcases List.mem_append.mp hm with hm | hm
  · exact (found_of_mem_allMatches hm).isIdentifier_name htable rfl
  · exact (found_of_mem_allMatches hm).isIdentifier_name has rfl

theorem isIdentifier_of_mem_sqlNames {line : List Char} {named : List Char × Role}
    (h : named ∈ sqlNames line) : IsIdentifier named.1 := by
  rcases List.mem_append.mp h with h | h
  · obtain ⟨name, hname, rfl⟩ := List.mem_map.mp h
    exact isIdentifier_of_mem_aliases hname
  · obtain ⟨header, hheader, rfl⟩ := List.mem_map.mp h
    exact TransactSql.isIdentifier_of_procedureHeader? (Option.mem_toList.mp hheader)

/-- **All names that are gathered are identifiers.** -/
theorem isIdentifier_of_mem_foundIn {snippet : Snippet} {found : Found}
    (h : found ∈ foundIn snippet) : IsIdentifier found.name := by
  obtain ⟨numbered, -, hfound⟩ := List.mem_flatMap.mp h
  obtain ⟨named, hnamed, rfl⟩ := List.mem_map.mp hfound
  revert hnamed
  cases snippet.dialect with
  | csharp => exact isIdentifier_of_mem_csharpNames
  | vbnet => exact isIdentifier_of_mem_vbnetNames
  | sql => exact isIdentifier_of_mem_sqlNames
  | unknown => exact fun h => absurd h List.not_mem_nil

theorem startsWithDigit_of_isIdentifier {name : List Char} (h : IsIdentifier name) :
    startsWithDigit name = false := by
  obtain ⟨c, rest, rfl⟩ := List.exists_cons_of_ne_nil h.ne_nil
  exact isDigit_of_startsIdentifier (h.starts c rfl)

/-! ## Faults exclude each other -/

/-- A generic name is too short for nothing. -/
theorem length_le_of_isGeneric {name : List Char} (h : isGeneric name = true) :
    3 ≤ name.length := by
  have hlong : ∀ generic ∈ genericNames, 3 ≤ generic.toList.length := by decide
  obtain ⟨generic, hgeneric, hsame⟩ := List.any_eq_true.mp h
  have hlength := congrArg List.length ((Text.sameIgnoringCase_iff _ _).mp hsame)
  rw [Text.asciiLower, Text.asciiLower, List.length_map, List.length_map] at hlength
  exact hlength ▸ hlong generic hgeneric

variable {name : List Char} {role : Role} {excused : Bool}

/-- **A name that does not start with a digit has one fault at most.** -/
theorem length_faults_le (h : startsWithDigit name = false) :
    (faults name role excused).length ≤ 1 := by
  have hshort : isGeneric name = true → ¬ name.length < 3 ∧ ¬ name.length < 2 := by
    intro hgeneric
    have hlong := length_le_of_isGeneric hgeneric
    omega
  cases role with
  | callable =>
    by_cases hgeneric : isGeneric name = true
    · simp [faults, h, hgeneric, (hshort hgeneric).1]
    · by_cases hlength : name.length < 3 <;> simp [faults, h, hgeneric, hlength]
  | «variable» =>
    by_cases hgeneric : isGeneric name = true
    · simp [faults, h, hgeneric, (hshort hgeneric).2]
    · by_cases hlength : name.length < 2 <;> cases excused <;>
        simp [faults, h, hgeneric, hlength]

theorem startsWithDigit_notMem_faults (h : startsWithDigit name = false) :
    Fault.startsWithDigit ∉ faults name role excused := by
  simp [faults, h]

/-! ## Messages -/

theorem isSuffix_wording {ending back : String} (h : ending.toList <:+ back.toList)
    (front name : String) : ending.toList <:+ (front ++ name ++ back).toList := by
  rw [String.toList_append]
  exact h.trans (List.suffix_append _ _)

/-- No other message says that a name starts with a number, whatever the names are. -/
theorem message_ne_startsWithDigit {fault : Fault} (h : fault ≠ .startsWithDigit)
    (name name' : String) : fault.message name ≠ Fault.startsWithDigit.message name' := by
  -- the messages end in different words
  have hother : ∀ (ending : String) {message : String}, ending.toList <:+ message.toList →
      ending.toList.length = "number.".toList.length → ending ≠ "number." →
        message ≠ Fault.startsWithDigit.message name' := by
    intro ending message hending hlength hne heq
    have hnumber : "number.".toList <:+ (Fault.startsWithDigit.message name').toList :=
      isSuffix_wording (by decide) "Name '" name'
    rw [← heq] at hnumber
    have hsame := (List.suffix_of_suffix_length_le hending hnumber hlength.le).eq_of_length hlength
    exact hne (String.toList_inj.mp hsame)
  cases fault with
  | startsWithDigit => exact absurd rfl h
  | shortCallable | shortVariable =>
    exact hother " short." (isSuffix_wording (by decide) _ name) (by decide) (by decide)
  | generic =>
    exact hother "iptive." (isSuffix_wording (by decide) _ name) (by decide) (by decide)

/-! ## Reports -/

/-- **Findings of names.**  What is reported is what is found wrong with the names, one after the
other.  None of them starts with a digit, and for each of them there is one issue at most; so no
message says that a name starts with a number, and there are no more issues than names. -/
theorem findings_of_names (snippet : Snippet) :
    let issues := Rule.nonDescriptiveNames.check snippet
    let issuesOf := issuesFor (countersOf snippet) (suggestion snippet)
    issues = (foundIn snippet).flatMap issuesOf ∧
      (∀ found ∈ foundIn snippet,
        startsWithDigit found.name = false ∧ (issuesOf found).length ≤ 1) ∧
      (∀ issue ∈ issues, ∀ name, issue.message ≠ Fault.startsWithDigit.message name) ∧
      issues.length ≤ (foundIn snippet).length := by
  intro issues issuesOf
  have hdigit : ∀ found ∈ foundIn snippet, startsWithDigit found.name = false :=
    fun found hfound => startsWithDigit_of_isIdentifier (isIdentifier_of_mem_foundIn hfound)
  have hone : ∀ found ∈ foundIn snippet, (issuesOf found).length ≤ 1 := by
    intro found hfound
    rw [show issuesOf = issuesFor _ _ from rfl, issuesFor, List.length_map]
    exact length_faults_le (hdigit found hfound)
  refine ⟨rfl, fun found hfound => ⟨hdigit found hfound, hone found hfound⟩, ?_, ?_⟩
  · intro issue hissue name
    obtain ⟨found, hfound, hissue⟩ := List.mem_flatMap.mp hissue
    obtain ⟨fault, hfault, rfl⟩ := List.mem_map.mp hissue
    refine message_ne_startsWithDigit ?_ _ name
    rintro rfl
    exact startsWithDigit_notMem_faults (hdigit found hfound) hfault
  · rw [show issues = (foundIn snippet).flatMap issuesOf from rfl, List.length_flatMap]
    refine (List.sum_le_card_nsmul _ 1 ?_).trans_eq (by simp)
    intro length hlength
    obtain ⟨found, hfound, rfl⟩ := List.mem_map.mp hlength
    exact hone found hfound

end Naming
end LineLint
