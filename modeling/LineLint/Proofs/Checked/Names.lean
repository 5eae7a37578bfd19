import LineLint.Proofs.Checked.Headers
import LineLint.Rule.Naming

/-! # Names found with checks

The names on a line, the loop counters, and the loan terms of a text, evaluated with
every read of a match and every cut of a text spelled out.  Nothing fails: all names
come from stretches that their patterns never do without, and a run of letters, which
is cut into the parts of a name, is not empty.  So the rule for names that say nothing
finds what it finds without checks (`nonDescriptiveNames_eq`).
-/
namespace LineLint
namespace Checked

open Text Code

/-! ## Loan terms -/

/-- Whether some name in the text has a loan term for a part. -/
def mentionsLoan (text : List Char) : Option Bool := do
  let parts ← (LoanTerms.letterRuns text).mapM nameParts
  return parts.any (·.any LoanTerms.isTerm)

theorem ne_nil_of_mem_letterRunsFrom {run text word : List Char}
    (h : word ∈ LoanTerms.letterRunsFrom run text) : word ≠ [] := by
  have hreverse : ∀ {run : List Char}, run.isEmpty = false → run.reverse ≠ [] := by
    intro run hrun hnil
    rw [List.reverse_eq_nil_iff.mp hnil] at hrun
    cases hrun
  induction text generalizing run with
  | nil =>
    rw [LoanTerms.letterRunsFrom] at h
    cases hrun : run.isEmpty with
    | true => rw [hrun] at h; cases h
    | false =>
      rw [hrun] at h
      rw [List.mem_singleton.mp h]
      exact hreverse hrun
  | cons c rest ih =>
    rw [LoanTerms.letterRunsFrom] at h
    by_cases hc : c.isAlpha = true
    · rw [if_pos hc] at h
      exact ih h
    · rw [if_neg hc] at h
      cases hrun : run.isEmpty with
      | true => rw [hrun] at h; exact ih h
      | false =>
        rw [hrun] at h
        rcases List.mem_cons.mp h with rfl | h
        · exact hreverse hrun
        · exact ih h

theorem mentionsLoan_eq (text : List Char) :
    mentionsLoan text = some (LoanTerms.mentionedIn text) := by
  have hparts := mapM_eq_some fun run (hrun : run ∈ LoanTerms.letterRuns text) =>
    nameParts_eq (ne_nil_of_mem_letterRunsFrom hrun)
  rw [mentionsLoan, hparts, LoanTerms.mentionedIn]
  simp only [Option.bind_eq_bind, Option.bind_some, List.any_map]
  rfl

/-! ## Names on a line -/

namespace Naming

open LineLint.Naming

/-- What a line says outside of strings and comments. -/
def codeOnly (line marker : List Char) : Option (List Char) :=
  stripComment (blankStrings line) marker

/-- The names on a line of C#. -/
def csharpNames (line : List Char) : Option (List (List Char × Role)) := do
  let code ← codeOnly line Code.CSharp.commentMarker
  let methods ← CSharp.methodHeaders code
  let found ← (variablePattern.allMatches code).filterM CSharp.declares
  let locals ← found.mapM (·.part? .name)
  return methods.map (fun header => (header.name, Role.callable)) ++
    locals.map fun name => (name, Role.variable)

/-- The counter that a loop head on the line declares, in small letters. -/
def csharpCounter? (line : List Char) : Option (Option (List Char)) :=
  match forPattern.find? line with
  | some head => do
    let content ← head.part? .content
    (counterPattern.find? content).mapM fun m => do
      let name ← m.part? .name
      return asciiLower name
  | none => some none

/-- The names on a line of VB.NET. -/
def vbnetNames (line : List Char) : Option (List (List Char × Role)) := do
  let code ← codeOnly line Code.VisualBasic.commentMarker
  let procedure ← VisualBasic.procedureHeader? code
  let locals ← (dimPattern.allMatches code).mapM (·.part? .name)
  return procedure.toList.map (fun header => (header.2.name, Role.callable)) ++
    locals.map fun name => (name, Role.variable)

/-- The counter `i` or `j` that a loop on the line counts with, in small letters. -/
def vbnetCounter? (line : List Char) : Option (Option (List Char)) :=
  match forToPattern.find? line with
  | some m => do
    let name := asciiLower (← m.part? .name)
    return if name = ['i'] || name = ['j'] then some name else none
  | none => some none

/-- The aliases on a line of T-SQL. -/
def aliases (code : List Char) : Option (List (List Char)) := do
  let found ← (tableAliasPattern.allMatches code ++ asAliasPattern.allMatches code).mapM
    (·.part? .name)
  return dedupIgnoringCase [] (found.filter fun name => !isNonAlias name)

/-- The names on a line of T-SQL. -/
def sqlNames (line : List Char) : Option (List (List Char × Role)) := do
  let code := beforeFirst Code.TransactSql.commentMarker line
  let aliases ← aliases code
  let routine ← TransactSql.procedureHeader? code
  return aliases.map (fun name => (name, Role.variable)) ++
    routine.toList.map fun header => (header.name, Role.callable)

/-- The names on a line. -/
def lineNames (dialect : Dialect) (line : List Char) : Option (List (List Char × Role)) :=
  match dialect with
  | .csharp => csharpNames line
  | .vbnet => vbnetNames line
  | .sql => sqlNames line
  | .unknown => some []

/-- The loop counter that a line declares. -/
def lineCounter? (dialect : Dialect) (line : List Char) : Option (Option (List Char)) :=
  match dialect with
  | .csharp => csharpCounter? line
  | .vbnet => vbnetCounter? line
  | _ => some none

theorem csharpNames_eq (line : List Char) :
    csharpNames line = some (LineLint.Naming.csharpNames line) := by
  have hdeclares : ∀ m ∈ variablePattern.allMatches (Code.codeOnly line Code.CSharp.commentMarker),
      CSharp.declares m = some (Code.CSharp.declares m) :=
    fun m hm => CSharp.declares_eq (Pattern.found_of_mem_allMatches hm) rfl rfl
  have hnames : ∀ m ∈ (variablePattern.allMatches
      (Code.codeOnly line Code.CSharp.commentMarker)).filter Code.CSharp.declares,
      m.part? .name = some (m.part .name) :=
    fun m hm => (Pattern.found_of_mem_allMatches (List.mem_filter.mp hm).1).part?_eq rfl
  have hcode : codeOnly line Code.CSharp.commentMarker =
      some (Code.codeOnly line Code.CSharp.commentMarker) := stripComment_eq _ _
  rw [csharpNames, hcode]
  simp only [Option.bind_eq_bind, Option.bind_some, CSharp.methodHeaders_eq,
    filterM_eq_some hdeclares, mapM_eq_some hnames, List.map_map]
  rfl

theorem csharpCounter?_eq (line : List Char) :
    csharpCounter? line = some (LineLint.Naming.csharpCounter? line) := by
  rw [csharpCounter?, LineLint.Naming.csharpCounter?]
  cases hfind : forPattern.find? line with
  | none => rfl
  | some head =>
    have hcontent := (Pattern.found_of_find? hfind).part?_eq
      (rfl : forPattern.passes .content = true)
    simp only [hcontent, Option.bind_eq_bind, Option.bind_some]
    refine optionMapM_eq_some fun m hm => ?_
    rw [(Pattern.found_of_find? hm).part?_eq rfl]
    rfl

theorem vbnetNames_eq (line : List Char) :
    vbnetNames line = some (LineLint.Naming.vbnetNames line) := by
  have hnames : ∀ m ∈ dimPattern.allMatches (Code.codeOnly line Code.VisualBasic.commentMarker),
      m.part? .name = some (m.part .name) :=
    fun m hm => (Pattern.found_of_mem_allMatches hm).part?_eq rfl
  have hcode : codeOnly line Code.VisualBasic.commentMarker =
      some (Code.codeOnly line Code.VisualBasic.commentMarker) := stripComment_eq _ _
  rw [vbnetNames, hcode]
  simp only [Option.bind_eq_bind, Option.bind_some, VisualBasic.procedureHeader?_eq,
    mapM_eq_some hnames, List.map_map]
  rfl

theorem vbnetCounter?_eq (line : List Char) :
    vbnetCounter? line = some (LineLint.Naming.vbnetCounter? line) := by
  rw [vbnetCounter?, LineLint.Naming.vbnetCounter?]
  cases hfind : forToPattern.find? line with
  | none => rfl
  | some m =>
    have hname := (Pattern.found_of_find? hfind).part?_eq
      (rfl : forToPattern.passes .name = true)
    simp only [hname]
    rfl

theorem aliases_eq (code : List Char) : aliases code = some (LineLint.Naming.aliases code) := by
  have hnames : ∀ m ∈ tableAliasPattern.allMatches code ++ asAliasPattern.allMatches code,
      m.part? .name = some (m.part .name) := by
    intro m hm
    rcases List.mem_append.mp hm with hm | hm
    · exact (Pattern.found_of_mem_allMatches hm).part?_eq rfl
    · exact (Pattern.found_of_mem_allMatches hm).part?_eq rfl
  rw [aliases, mapM_eq_some hnames]
  rfl

theorem sqlNames_eq (line : List Char) :
    sqlNames line = some (LineLint.Naming.sqlNames line) := by
  rw [sqlNames]
  simp only [aliases_eq, TransactSql.procedureHeader?_eq]
  rfl

theorem lineNames_eq (dialect : Dialect) (line : List Char) :
    lineNames dialect line = some (LineLint.Naming.lineNames dialect line) := by
  cases dialect with
  | unknown => rfl
  | csharp => exact csharpNames_eq line
  | vbnet => exact vbnetNames_eq line
  | sql => exact sqlNames_eq line

theorem lineCounter?_eq (dialect : Dialect) (line : List Char) :
    lineCounter? dialect line = some (LineLint.Naming.lineCounter? dialect line) := by
  cases dialect with
  | unknown | sql => rfl
  | csharp => exact csharpCounter?_eq line
  | vbnet => exact vbnetCounter?_eq line

/-! ## Names that say nothing -/

/-- The names in a snippet, line by line. -/
def foundIn (dialect : Dialect) (lines : List (List Char)) : Option (List Found) := do
  let found ← (lines.zipIdx 1).mapM fun numbered => do
    let names ← lineNames dialect numbered.1
    return names.map fun named => (⟨numbered.2, named.1, named.2⟩ : Found)
  return found.flatten

/-- The loop counters of a snippet. -/
def countersOf (dialect : Dialect) (lines : List (List Char)) : Option (List (List Char)) := do
  let counters ← lines.mapM (lineCounter? dialect)
  return counters.filterMap id

/-- What to call things instead, by what the snippet is about. -/
def suggestion (snippet : Snippet) : Option String :=
  match snippet.dialect with
  | .csharp | .vbnet => do
    let loan ← mentionsLoan snippet.text
    return if loan then
      baseSuggestion ++
        " Given parameters like principal/rate/term, consider 'CalculateLoanInterest'."
    else baseSuggestion
  | _ => some (LineLint.Naming.suggestion snippet)

theorem suggestion_eq (snippet : Snippet) :
    suggestion snippet = some (LineLint.Naming.suggestion snippet) := by
  obtain ⟨text, dialect⟩ := snippet
  cases dialect with
  | unknown | sql => rfl
  | csharp | vbnet =>
    simp only [suggestion, mentionsLoan_eq]
    rfl

theorem foundIn_eq (snippet : Snippet) :
    foundIn snippet.dialect snippet.lines = some (LineLint.Naming.foundIn snippet) := by
  simp only [foundIn, lineNames_eq, Option.bind_eq_bind, Option.bind_some, List.mapM_pure]
  exact congrArg some List.flatMap_def.symm

theorem countersOf_eq (snippet : Snippet) :
    countersOf snippet.dialect snippet.lines = some (LineLint.Naming.countersOf snippet) := by
  rw [countersOf, mapM_eq_some fun line _ => lineCounter?_eq snippet.dialect line]
  simp only [Option.bind_eq_bind, Option.bind_some, List.filterMap_map]
  rfl

end Naming

/-- The issues of names that say nothing. -/
def nonDescriptiveNames (snippet : Snippet) : Option (List Issue) := do
  let advice ← Naming.suggestion snippet
  let lines ← lines snippet.text
  let found ← Naming.foundIn snippet.dialect lines
  let counters ← Naming.countersOf snippet.dialect lines
  return found.flatMap (LineLint.Naming.issuesFor counters advice)

theorem nonDescriptiveNames_eq (snippet : Snippet) :
    nonDescriptiveNames snippet = some (Rule.nonDescriptiveNames.check snippet) := by
  have hlines : lines snippet.text = some snippet.lines := lines_eq snippet.text
  rw [nonDescriptiveNames, Naming.suggestion_eq, hlines]
  simp only [Option.bind_eq_bind, Option.bind_some, Naming.foundIn_eq, Naming.countersOf_eq]
  rfl

end Checked
end LineLint
