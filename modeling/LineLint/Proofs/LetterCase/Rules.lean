import LineLint.Proofs.LetterCase.Blocks
import LineLint.Rule.Line
import LineLint.Rule.MissingEnd
import LineLint.Rule.Structure

/-! # Rules that ignore letter case

The mark of an issue is what it says apart from its wording: kind, line number
and severity.  A rule ignores the case of a dialect if it leaves the same marks on
a text in small letters as on the text itself (`Rule.IgnoresCase`).

This module shows it of the rules for single lines, of missing terminators and
of the structural smells; names and literals have modules of their own.
-/
namespace LineLint

open Text (asciiLower)

/-- What an issue says apart from its wording. -/
def Issue.mark (issue : Issue) : String × Option Nat × Severity :=
  (issue.kind, issue.line, issue.severity)

namespace Snippet

/-- The snippet in small letters. -/
def lower (snippet : Snippet) : Snippet :=
  ⟨asciiLower snippet.text, snippet.dialect⟩

@[simp] theorem dialect_lower (snippet : Snippet) : snippet.lower.dialect = snippet.dialect := rfl

@[simp] theorem lines_lower (snippet : Snippet) :
    snippet.lower.lines = snippet.lines.map asciiLower :=
  Text.lines_asciiLower snippet.text

@[simp] theorem numberedLines_lower (snippet : Snippet) :
    snippet.lower.numberedLines = snippet.numberedLines.map (Prod.map asciiLower id) := by
  rw [numberedLines, lines_lower, List.zipIdx_map, numberedLines]

/-- What is found line by line is found in small letters in the snippet in small letters. -/
theorem flatMap_numberedLines_lower {α : Type} {find find' : List Char × Nat → List α}
    {inLower : α → α} (snippet : Snippet)
    (h : ∀ line number, find' (asciiLower line, number) = (find (line, number)).map inLower) :
    snippet.lower.numberedLines.flatMap find' =
      (snippet.numberedLines.flatMap find).map inLower := by
  rw [numberedLines_lower, List.flatMap_map, List.map_flatMap]
  refine List.flatMap_congr ?_
  intro numbered _
  exact h numbered.1 numbered.2

end Snippet

namespace Rule

/-- Whether a rule leaves the same marks whatever the case of the letters. -/
def IgnoresCase (rule : Rule) (dialect : Dialect) : Prop :=
  ∀ snippet : Snippet, snippet.dialect = dialect →
    (rule.check snippet.lower).map Issue.mark = (rule.check snippet).map Issue.mark

/-! ## Single lines -/

/-- A rule for single lines ignores the case of the letters if its criterion does. -/
theorem ignoresCase_lineCheck (check : LineCheck)
    (hbad : ∀ line, check.isBad (asciiLower line) = check.isBad line) (dialect : Dialect) :
    check.rule.IgnoresCase dialect := by
  intro snippet _
  have hfilter : ((fun numbered : List Char × Nat => check.isBad numbered.1) ∘
      Prod.map asciiLower id) = fun numbered => check.isBad numbered.1 :=
    funext fun numbered => hbad numbered.1
  simp only [LineCheck.rule, checkLines]
  rw [Snippet.numberedLines_lower, List.filter_map, hfilter, List.map_map, List.map_map, List.map_map]
  rfl

theorem caseBlind_gotoPattern : gotoPattern.CaseBlind := by
  simp [gotoPattern]

theorem mentions_asciiLower (capitals : String) (line : List Char) :
    mentions (asciiLower line) capitals = mentions line capitals := by
  rw [mentions, Text.upper_asciiLower, mentions]

theorem lacksWhere_asciiLower (line : List Char) :
    lacksWhere (asciiLower line) = lacksWhere line := by
  simp only [lacksWhere, mentions_asciiLower]

/-! ## Missing terminators -/

theorem procedureLine_asciiLower (line : List Char) :
    ProcedureLine.of (asciiLower line) = ProcedureLine.of line := by
  rw [ProcedureLine.of, Code.VisualBasic.procedureHeader?_asciiLower,
    Code.VisualBasic.procedureEnd?_asciiLower, ProcedureLine.of]
  cases Code.VisualBasic.procedureHeader? line <;> rfl

theorem lacksEnd_asciiLower (kind : Code.VisualBasic.ProcedureKind) (lines : List (List Char)) :
    lacksEnd kind (lines.map asciiLower) = lacksEnd kind lines := by
  have hof : ProcedureLine.of ∘ asciiLower = ProcedureLine.of :=
    funext procedureLine_asciiLower
  simp only [lacksEnd, List.map_map, hof]

theorem ignoresCase_missingEnd (dialect : Dialect) : missingEnd.IgnoresCase dialect := by
  intro snippet _
  simp only [missingEnd, Snippet.lines_lower, lacksEnd_asciiLower]

/-! ## Structural smells -/

/-- Issues for chosen blocks leave the same marks if neither the choice nor the mark looks at
the name of the block. -/
theorem marks_blocks {choose : Code.Block → Bool} {issue : Code.Block → Issue}
    (hchoose : ∀ block : Code.Block, choose block.lower = choose block)
    (hmark : ∀ block : Code.Block, (issue block.lower).mark = (issue block).mark)
    (blocks : List Code.Block) :
    (((blocks.map Code.Block.lower).filter choose).map issue).map Issue.mark =
      ((blocks.filter choose).map issue).map Issue.mark := by
  have hfilter : choose ∘ Code.Block.lower = choose := funext hchoose
  rw [List.filter_map, hfilter, List.map_map, List.map_map, List.map_map]
  exact List.map_congr_left fun block _ => hmark block

theorem proceduresOrBatch_asciiLower (lines : List (List Char)) :
    proceduresOrBatch (lines.map asciiLower) =
      (proceduresOrBatch lines).map Code.Block.lower := by
  rw [proceduresOrBatch, Code.TransactSql.procedureBlocks_asciiLower,
    Code.TransactSql.batchBlock_asciiLower, proceduresOrBatch]
  cases Code.TransactSql.procedureBlocks lines <;> rfl

theorem ignoresCase_deepNesting (maxDepth : Nat) {dialect : Dialect}
    (hdialect : dialect = .vbnet ∨ dialect = .sql) :
    (deepNesting maxDepth).IgnoresCase dialect := by
  intro snippet hsnippet
  rcases hdialect with rfl | rfl
  · simp only [deepNesting, Snippet.dialect_lower, hsnippet, Snippet.lines_lower,
      Code.VisualBasic.procedureBlocks_asciiLower]
    exact marks_blocks (fun _ => rfl) (fun _ => rfl) _
  · simp only [deepNesting, Snippet.dialect_lower, hsnippet, Snippet.lines_lower,
      proceduresOrBatch_asciiLower]
    exact marks_blocks (fun _ => rfl) (fun _ => rfl) _

theorem callableHeader?_asciiLower {dialect : Dialect}
    (hdialect : dialect = .vbnet ∨ dialect = .sql) (line : List Char) :
    callableHeader? dialect (asciiLower line) =
      (callableHeader? dialect line).map Code.Header.lower := by
  rcases hdialect with rfl | rfl
  · simp only [callableHeader?, Code.VisualBasic.procedureHeader?_asciiLower, Option.map_map]
    rfl
  · exact Code.TransactSql.procedureHeader?_asciiLower line

theorem mark_longParamsIssue? {dialect : Dialect} (hdialect : dialect = .vbnet ∨ dialect = .sql)
    (maxParams number : Nat) (line : List Char) :
    (longParamsIssue? maxParams dialect number (asciiLower line)).map Issue.mark =
      (longParamsIssue? maxParams dialect number line).map Issue.mark := by
  rw [longParamsIssue?, callableHeader?_asciiLower hdialect, longParamsIssue?]
  cases callableHeader? dialect line with
  | none => rfl
  | some header =>
    simp only [Option.map_some, Code.Header.paramCount_lower]
    cases header.paramCount with
    | none => rfl
    | some count => by_cases hlong : maxParams < count <;> simp [hlong, Issue.mark]

theorem ignoresCase_longParameterList (maxParams : Nat) {dialect : Dialect}
    (hdialect : dialect = .vbnet ∨ dialect = .sql) :
    (longParameterList maxParams).IgnoresCase dialect := by
  intro snippet hsnippet
  simp only [longParameterList, Snippet.dialect_lower, hsnippet, Snippet.numberedLines_lower,
    List.filterMap_map, List.map_filterMap]
  refine List.filterMap_congr ?_
  intro numbered _
  exact mark_longParamsIssue? hdialect maxParams numbered.2 numbered.1

theorem ignoresCase_largeStructure (maxLines maxMethods : Nat) {dialect : Dialect}
    (hdialect : dialect = .vbnet ∨ dialect = .sql) :
    (largeStructure maxLines maxMethods).IgnoresCase dialect := by
  intro snippet hsnippet
  rcases hdialect with rfl | rfl
  · simp only [largeStructure, Snippet.dialect_lower, hsnippet, Snippet.lines_lower,
      Code.VisualBasic.classBlocks_asciiLower]
    exact marks_blocks (fun _ => rfl) (fun _ => rfl) _
  · simp only [largeStructure, Snippet.dialect_lower, hsnippet, Snippet.lines_lower,
      Code.TransactSql.procedureBlocks_asciiLower]
    exact marks_blocks (fun _ => rfl) (fun _ => rfl) _

end Rule
end LineLint
