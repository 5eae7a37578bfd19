import LineLint.Proofs.Checked.Blocks
import LineLint.Proofs.Checked.Names
import LineLint.Rule.Catalog

/-! # Rules evaluated with checks

Seven rules cut texts, look into lists or subtract; each is evaluated here with every
such step spelled out, and finds what it finds without checks.  The other six look at
whole lines and make no step that could fail.  `check` puts all of them together, for
any thresholds (`check_eq`).
-/
namespace LineLint
namespace Checked

open Code (Block BlockKind Header)

/-! ## Blocks that are too much -/

/-- Number of `if` words on the lines of a block. -/
def countIfs (lines : List (List Char)) (block : Block) : Option Nat := do
  let counts ← (← linesOf lines block).mapM fun line => countWord line "if".toList
  return counts.foldl (· + ·) 0

/-- The issues of methods with too many `if` words. -/
def nestedIfs (maxIfs : Nat) (snippet : Snippet) : Option (List Issue) := do
  let lines ← lines snippet.text
  let methods ← blocks .csharpMethod lines
  let counted ← (methods.filter (·.closed)).mapM fun block => do
    let ifs ← countIfs lines block
    return (block, ifs)
  return (counted.filter fun counted => maxIfs < counted.2).map fun counted =>
    { kind := "CSharp.NestedIfs"
      line := some counted.1.stop
      message := "Method contains more than " ++ Rule.spelled maxIfs ++
        " 'if' statements (found " ++ toString counted.2 ++ ")."
      suggestion := "Consider refactoring (guard clauses, strategy, or early returns)."
      severity := .warning }

/-- The issues of bodies that nest too deeply. -/
def deepNesting (maxDepth : Nat) (snippet : Snippet) : Option (List Issue) := do
  let lines ← lines snippet.text
  let tooDeep := fun blocks : List Block => blocks.filter fun block => maxDepth < block.maxDepth
  match snippet.dialect with
  | .csharp => do
    let methods ← blocks .csharpMethod lines
    return (tooDeep methods).map (Rule.deepCodeIssue maxDepth)
  | .vbnet => do
    let procedures ← blocks .vbnetProcedure lines
    return (tooDeep procedures).map (Rule.deepCodeIssue maxDepth)
  | .sql => do
    let procedures ← blocks .sqlProcedure lines
    let batches := if procedures.isEmpty then [Code.TransactSql.batchBlock lines] else procedures
    return (tooDeep batches).map (Rule.deepBatchIssue maxDepth)
  | .unknown => return []

/-- The blocks of a kind of which a test of their span and their methods holds. -/
def blocksWhere (kind : BlockKind) (test : Nat → Nat → Bool) (lines : List (List Char)) :
    Option (List Block) := do
  (← blocks kind lines).filterM fun block => do
    let span ← span block
    return test span block.methods

/-- The issues of classes and procedures that are too large. -/
def largeStructure (maxLines maxMethods : Nat) (snippet : Snippet) : Option (List Issue) := do
  let lines ← lines snippet.text
  let tooLarge := fun span methods : Nat =>
    decide (maxLines < span) || decide (maxMethods < methods)
  match snippet.dialect with
  | .csharp => do
    let classes ← blocksWhere .csharpClass tooLarge lines
    return classes.map Rule.largeClassIssue
  | .vbnet => do
    let classes ← blocksWhere .vbnetClass tooLarge lines
    return classes.map Rule.largeClassIssue
  | .sql => do
    let procedures ← blocksWhere .sqlProcedure (fun span _ => decide (maxLines < span)) lines
    return procedures.map Rule.largeProcedureIssue
  | .unknown => return []

theorem lines_snippet (snippet : Snippet) : lines snippet.text = some snippet.lines :=
  lines_eq snippet.text

theorem countIfs_eq {kind : BlockKind} {lines : List (List Char)} {block : Block}
    (h : block ∈ kind.blocks lines) : countIfs lines block = some (Rule.countIfs lines block) := by
  rw [countIfs, linesOf_eq h]
  simp only [Option.bind_eq_bind, Option.bind_some, countWord_eq]
  rw [mapM_eq_some fun _ _ => rfl, Rule.countIfs, Option.bind_some, List.foldl_map]
  rfl

theorem nestedIfs_eq (maxIfs : Nat) (snippet : Snippet) :
    nestedIfs maxIfs snippet = some ((Rule.nestedIfs maxIfs).check snippet) := by
  have hcounted : ∀ block ∈ (BlockKind.csharpMethod.blocks snippet.lines).filter (·.closed),
      (countIfs snippet.lines block).bind (fun ifs => some (block, ifs)) =
        some (block, Rule.countIfs snippet.lines block) := by
    intro block hblock
    rw [countIfs_eq (List.mem_filter.mp hblock).1, Option.bind_some]
  rw [nestedIfs, lines_snippet]
  simp only [Option.bind_eq_bind, Option.bind_some, blocks_eq, Option.pure_def,
    mapM_eq_some hcounted, List.filter_map, List.map_map, List.filter_filter]
  exact congrArg (fun found => some (List.map _ found))
    (List.filter_congr fun block _ => Bool.and_comm _ _)

theorem deepNesting_eq (maxDepth : Nat) (snippet : Snippet) :
    deepNesting maxDepth snippet = some ((Rule.deepNesting maxDepth).check snippet) := by
  obtain ⟨text, dialect⟩ := snippet
  rw [deepNesting, lines_snippet]
  cases dialect with
  | unknown => rfl
  | csharp | vbnet =>
    simp only [Option.bind_eq_bind, Option.bind_some, blocks_eq]
    rfl
  | sql =>
    simp only [Option.bind_eq_bind, Option.bind_some, blocks_eq, Rule.deepNesting,
      Rule.proceduresOrBatch, BlockKind.blocks]
    cases Code.TransactSql.procedureBlocks (Snippet.mk text .sql).lines <;> rfl

theorem blocksWhere_eq (kind : BlockKind) (test : Nat → Nat → Bool) (lines : List (List Char)) :
    blocksWhere kind test lines =
      some ((kind.blocks lines).filter fun block => test block.span block.methods) := by
  rw [blocksWhere, blocks_eq]
  refine filterM_eq_some fun block hblock => ?_
  rw [span_eq hblock]
  rfl

theorem largeStructure_eq (maxLines maxMethods : Nat) (snippet : Snippet) :
    largeStructure maxLines maxMethods snippet =
      some ((Rule.largeStructure maxLines maxMethods).check snippet) := by
  obtain ⟨text, dialect⟩ := snippet
  rw [largeStructure, lines_snippet]
  cases dialect with
  | unknown => rfl
  | csharp | vbnet | sql =>
    simp only [Option.bind_eq_bind, Option.bind_some, blocksWhere_eq]
    rfl

/-! ## Headers -/

/-- The first callable header on a line. -/
def callableHeader? (dialect : Dialect) (line : List Char) : Option (Option Header) :=
  match dialect with
  | .csharp => CSharp.methodHeader? line
  | .vbnet => do
    let found ← VisualBasic.procedureHeader? line
    return found.map (·.2)
  | .sql => TransactSql.procedureHeader? line
  | .unknown => some none

/-- The issue for the first header on a line, if its parameters are more than a limit. -/
def longParamsIssue? (maxParams : Nat) (dialect : Dialect) (number : Nat) (line : List Char) :
    Option (Option Issue) := do
  let header ← callableHeader? dialect line
  return header.bind fun header => header.paramCount.bind fun count =>
    if maxParams < count then
      some
        { kind := "Smell.LongParameterList"
          line := some number
          message := Rule.callableNoun dialect ++ " '" ++ String.ofList header.name ++ "' has " ++
            toString count ++ " parameters."
          suggestion := Rule.shortenParams dialect
          severity := .warning }
    else none

/-- The issues of headers with too many parameters. -/
def longParameterList (maxParams : Nat) (snippet : Snippet) : Option (List Issue) := do
  let lines ← lines snippet.text
  let issues ← (lines.zipIdx 1).mapM fun numbered =>
    longParamsIssue? maxParams snippet.dialect numbered.2 numbered.1
  return issues.filterMap id

/-- Classifies a line by what it does to the balance of procedures. -/
def procedureLine (line : List Char) : Option Rule.ProcedureLine := do
  match ← VisualBasic.procedureHeader? line with
  | some (kind, header) => return if header.bodiless then .neutral else .opens kind
  | none =>
    match ← VisualBasic.procedureEnd? line with
    | some kind => return .closes kind
    | none => return .neutral

/-- The issues of procedures without a terminator. -/
def missingEnd (snippet : Snippet) : Option (List Issue) := do
  let classified ← (← lines snippet.text).mapM procedureLine
  let lacking := [.sub, .function].filter fun kind =>
    decide (classified.count (.closes kind) < classified.count (.opens kind))
  return lacking.map Rule.missingEndIssue

theorem callableHeader?_eq (dialect : Dialect) (line : List Char) :
    callableHeader? dialect line = some (Rule.callableHeader? dialect line) := by
  cases dialect with
  | unknown => rfl
  | csharp => exact CSharp.methodHeader?_eq line
  | vbnet =>
    simp only [callableHeader?, VisualBasic.procedureHeader?_eq]
    rfl
  | sql => exact TransactSql.procedureHeader?_eq line

theorem longParamsIssue?_eq (maxParams : Nat) (dialect : Dialect) (number : Nat)
    (line : List Char) :
    longParamsIssue? maxParams dialect number line =
      some (Rule.longParamsIssue? maxParams dialect number line) := by
  rw [longParamsIssue?, callableHeader?_eq, Rule.longParamsIssue?]
  cases Rule.callableHeader? dialect line with
  | none => rfl
  | some header =>
    simp only [Option.bind_eq_bind, Option.bind_some]
    cases header.paramCount <;> rfl

theorem longParameterList_eq (maxParams : Nat) (snippet : Snippet) :
    longParameterList maxParams snippet =
      some ((Rule.longParameterList maxParams).check snippet) := by
  have hissues := mapM_eq_some fun numbered (_ : numbered ∈ snippet.lines.zipIdx 1) =>
    longParamsIssue?_eq maxParams snippet.dialect numbered.2 numbered.1
  rw [longParameterList, lines_snippet]
  simp only [Option.bind_eq_bind, Option.bind_some, hissues, List.filterMap_map]
  rfl

theorem procedureLine_eq (line : List Char) :
    procedureLine line = some (Rule.ProcedureLine.of line) := by
  rw [procedureLine, VisualBasic.procedureHeader?_eq, Rule.ProcedureLine.of]
  cases Code.VisualBasic.procedureHeader? line with
  | some found => rfl
  | none =>
    simp only [Option.bind_eq_bind, Option.bind_some, VisualBasic.procedureEnd?_eq]
    cases Code.VisualBasic.procedureEnd? line <;> rfl

theorem missingEnd_eq (snippet : Snippet) :
    missingEnd snippet = some (Rule.missingEnd.check snippet) := by
  rw [missingEnd, lines_snippet]
  simp only [Option.bind_eq_bind, Option.bind_some,
    mapM_eq_some fun line _ => procedureLine_eq line]
  rfl

/-! ## Repeated literals -/

open Literal (firstOccurrences countDistinct)

/-- The issues of literals that occur on several lines. -/
def repeatedLiteral (minLines : Nat) (snippet : Snippet) : Option (List Issue) := do
  let lines ← lines snippet.text
  let all := (lines.zipIdx 1).flatMap fun numbered =>
    (Literal.onLine (Literal.quoteOf snippet.dialect) numbered.1).map fun literal =>
      (⟨literal.1, literal.2, numbered.2⟩ : Literal.Occurrence)
  let repeated := (firstOccurrences [] all).filter fun first =>
    minLines ≤ countDistinct (Literal.linesOf all first.key)
  repeated.mapM fun first => do
    let line ← (Literal.linesOf all first.key)[0]?
    return { kind := "Smell.RepeatedLiteral"
             line := some line
             message := "Literal '" ++ String.ofList first.spelling ++ "' appears " ++
               toString (Literal.linesOf all first.key).length ++ " times."
             suggestion := "Extract to a constant or parameter to improve maintainability."
             severity := .info }

/-- A literal has a first line, the one on which it is first met. -/
theorem getElem?_linesOf {all : List Literal.Occurrence} {seen : List Literal.Key}
    {first : Literal.Occurrence} (h : first ∈ firstOccurrences seen all) :
    first.key ∉ seen ∧ (Literal.linesOf all first.key)[0]? = some first.line := by
  induction all generalizing seen with
  | nil => cases h
  | cons occurrence rest ih =>
    -- lines of another literal are not among those of this one
    have hskip : occurrence.key ≠ first.key →
        Literal.linesOf (occurrence :: rest) first.key = Literal.linesOf rest first.key := by
      intro hne
      rw [Literal.linesOf, List.filter_cons_of_neg (by simpa using hne), Literal.linesOf]
    rw [firstOccurrences] at h
    by_cases hseen : seen.contains occurrence.key = true
    · rw [if_pos hseen] at h
      obtain ⟨hnot, hline⟩ := ih h
      have hne : occurrence.key ≠ first.key := fun heq =>
        hnot (heq ▸ List.mem_of_elem_eq_true hseen)
      exact ⟨hnot, hskip hne ▸ hline⟩
    · rw [if_neg hseen] at h
      rcases List.mem_cons.mp h with rfl | h
      · refine ⟨fun hmem => hseen (List.elem_eq_true_of_mem hmem), ?_⟩
        rw [Literal.linesOf, List.filter_cons_of_pos (by simp)]
        rfl
      · obtain ⟨hnot, hline⟩ := ih h
        have hne : occurrence.key ≠ first.key := fun heq => hnot (heq ▸ List.mem_cons_self)
        exact ⟨fun hmem => hnot (List.mem_cons_of_mem _ hmem), hskip hne ▸ hline⟩

theorem repeatedLiteral_eq (minLines : Nat) (snippet : Snippet) :
    repeatedLiteral minLines snippet = some ((Rule.repeatedLiteral minLines).check snippet) := by
  rw [repeatedLiteral, lines_snippet]
  refine mapM_eq_some fun first hfirst => ?_
  rw [(getElem?_linesOf (List.mem_filter.mp hfirst).1).2]
  rfl

/-! ## All rules -/

/-- The checks that cut, look up or subtract, by the names of their rules. -/
def checks (get : String → Nat → Nat) : List (String × (Snippet → Option (List Issue))) :=
  [("CSharp.NestedIfs", nestedIfs (get "max_ifs" Rule.defaultMaxIfs)),
   ("VBNet.MissingEnd", missingEnd),
   ("Naming.NonDescriptive", nonDescriptiveNames),
   ("Smell.DeepNesting", deepNesting (get "max_depth" Rule.defaultMaxDepth)),
   ("Smell.LongParameterList", longParameterList (get "max_params" Rule.defaultMaxParams)),
   ("Smell.LargeStructure", largeStructure (get "max_lines" Rule.defaultMaxLines)
      (get "max_methods" Rule.defaultMaxMethods)),
   ("Smell.RepeatedLiteral", repeatedLiteral (get "min_lines" Rule.defaultMinLines))]

/-- The issues that a rule of the catalog finds with given thresholds. -/
def check (template : RuleTemplate) (get : String → Nat → Nat) (snippet : Snippet) :
    Option (List Issue) :=
  match (checks get).lookup template.name with
  | some check => check snippet
  | none => some ((template.build get).check snippet)

/-- **No rule fails**, whatever its thresholds. -/
theorem check_eq {template : RuleTemplate} (h : template ∈ Catalog.templates)
    (get : String → Nat → Nat) (snippet : Snippet) :
    check template get snippet = some ((template.build get).check snippet) := by
  simp only [Catalog.templates, List.mem_cons, List.not_mem_nil, or_false] at h
  rcases h with rfl | rfl | rfl | rfl | rfl | rfl | rfl | rfl | rfl | rfl | rfl | rfl | rfl
  · rfl
  · rfl
  · exact nestedIfs_eq _ snippet
  · rfl
  · exact missingEnd_eq snippet
  · rfl
  · rfl
  · rfl
  · exact nonDescriptiveNames_eq snippet
  · exact deepNesting_eq _ snippet
  · exact longParameterList_eq _ snippet
  · exact largeStructure_eq _ _ snippet
  · exact repeatedLiteral_eq _ snippet

end Checked
end LineLint
