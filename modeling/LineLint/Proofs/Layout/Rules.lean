import LineLint.Proofs.Layout.Blocks
import LineLint.Proofs.Layout.Lines
import LineLint.Rule.Branching
import LineLint.Rule.Line
import LineLint.Rule.MissingEnd
import LineLint.Rule.Structure

/-! # Rules that do not see the layout

Two snippets are alike if they are of one dialect and have the same lines up to
indentation.  A rule ignores the layout if it finds the same issues in snippets
that are alike (`Rule.IgnoresLayout`); it does if what it makes of the lines is
not changed by trimming them (`Snippet.Alike.congr_lines`).

This module shows it of the rules for single lines that quote nothing of a line, of
the `if` words of methods, of missing terminators and of the structural smells;
names and literals have modules of their own.
-/
namespace LineLint

open Text (IndentBlind trimStart)

namespace Snippet

/-- Whether two snippets are of one dialect and have the same lines up to indentation. -/
structure Alike (s t : Snippet) : Prop where
  dialect : s.dialect = t.dialect
  text : Text.Alike s.text t.text

variable {s t : Snippet}

/-- What is made of the lines is the same if trimming them does not change it. -/
theorem Alike.congr_lines {α : Type} {f : List (List Char) → α}
    (hf : ∀ lines, f (lines.map trimStart) = f lines) (h : s.Alike t) : f s.lines = f t.lines := by
  have htrim : s.lines.map trimStart = t.lines.map trimStart := h.text
  rw [← hf s.lines, htrim, hf]

/-- What is found line by line is the same. -/
theorem Alike.flatMap_numberedLines {α : Type} {find : List Char × Nat → List α}
    (hfind : ∀ number, IndentBlind fun line => find (line, number)) (h : s.Alike t) :
    s.numberedLines.flatMap find = t.numberedLines.flatMap find := by
  refine h.congr_lines (f := fun lines => (lines.zipIdx 1).flatMap find) ?_
  intro lines
  rw [List.zipIdx_map, List.flatMap_map]
  congr 1
  funext numbered
  exact (hfind numbered.2).trimStart numbered.1

end Snippet

namespace Rule

/-- Whether a rule finds the same issues in snippets that are alike. -/
def IgnoresLayout (rule : Rule) : Prop :=
  ∀ s t : Snippet, s.Alike t → rule.check s = rule.check t

/-! ## Single lines -/

/-- A rule for single lines ignores the layout if its criterion does, and if nothing of the line
is quoted. -/
theorem ignoresLayout_lineCheck (check : LineCheck) (hbad : IndentBlind check.isBad)
    (hmessage : ∀ line line', check.message line = check.message line') :
    check.rule.IgnoresLayout := by
  -- the line decides whether there is an issue, and its number alone goes into it
  have hissue : ∀ number line, check.issue number line = check.issue number [] := by
    intro number line
    rw [LineCheck.issue, hmessage line [], LineCheck.issue]
  have hflat : ∀ snippet : Snippet, check.rule.check snippet =
      snippet.numberedLines.flatMap fun numbered =>
        if check.isBad numbered.1 then [check.issue numbered.2 []] else [] := by
    intro snippet
    simp only [LineCheck.rule, checkLines]
    induction snippet.numberedLines with
    | nil => rfl
    | cons numbered more ih =>
      rw [List.flatMap_cons, ← ih, List.filter_cons]
      cases check.isBad numbered.1 <;> simp [hissue numbered.2 numbered.1]
  intro s t h
  rw [hflat, hflat]
  refine h.flatMap_numberedLines ?_
  intro number c line hc
  simp only [hbad c line hc]

theorem indentBlind_mentions {capitals : String}
    (hsolid : Text.startsSolid capitals.toList = true) :
    IndentBlind fun line => mentions line capitals :=
  Text.indentBlind_contains Text.upper_nil Text.upper_break hsolid

theorem indentBlind_lacksWhere : IndentBlind lacksWhere := by
  intro c line hc
  have hmentions : ∀ capitals : String, Text.startsSolid capitals.toList = true →
      mentions (c :: line) capitals = mentions line capitals :=
    fun _ hsolid => indentBlind_mentions hsolid c line hc
  rw [lacksWhere, hmentions _ (by decide), hmentions _ (by decide), hmentions _ (by decide),
    lacksWhere]

/-! ## Branching and missing terminators -/

theorem linesOf_map (change : List Char → List Char) (lines : List (List Char))
    (block : Code.Block) : linesOf (lines.map change) block = (linesOf lines block).map change := by
  rw [linesOf, ← List.map_drop, ← List.map_take, linesOf]

theorem countIfs_trimStart (lines : List (List Char)) (block : Code.Block) :
    countIfs (lines.map trimStart) block = countIfs lines block := by
  have hcount : IndentBlind fun line => Text.countWord line "if".toList :=
    Text.indentBlind_countWord (by decide)
  rw [countIfs, linesOf_map, List.foldl_map, countIfs]
  congr 1
  funext n line
  exact congrArg (n + ·) (hcount.trimStart line)

theorem ignoresLayout_nestedIfs (maxIfs : Nat) : (nestedIfs maxIfs).IgnoresLayout := by
  intro s t h
  have hblocks : Code.CSharp.methodBlocks s.lines = Code.CSharp.methodBlocks t.lines :=
    h.congr_lines Code.CSharp.methodBlocks_trimStart
  have hcount : countIfs s.lines = countIfs t.lines :=
    h.congr_lines fun lines => funext (countIfs_trimStart lines)
  simp only [nestedIfs, hblocks, hcount]

theorem indentBlind_procedureLine : IndentBlind ProcedureLine.of := by
  intro c line hc
  rw [ProcedureLine.of, Code.VisualBasic.indentBlind_procedureHeader? c line hc,
    Code.VisualBasic.indentBlind_procedureEnd? c line hc, ProcedureLine.of]

theorem lacksEnd_trimStart (kind : Code.VisualBasic.ProcedureKind) (lines : List (List Char)) :
    lacksEnd kind (lines.map trimStart) = lacksEnd kind lines := by
  have hof : ProcedureLine.of ∘ trimStart = ProcedureLine.of :=
    funext indentBlind_procedureLine.trimStart
  simp only [lacksEnd, List.map_map, hof]

theorem ignoresLayout_missingEnd : missingEnd.IgnoresLayout := by
  intro s t h
  refine h.congr_lines (f := fun lines =>
    ([.sub, .function].filter fun kind => lacksEnd kind lines).map missingEndIssue) ?_
  intro lines
  simp only [lacksEnd_trimStart]

/-! ## Structural smells -/

theorem proceduresOrBatch_trimStart (lines : List (List Char)) :
    proceduresOrBatch (lines.map trimStart) = proceduresOrBatch lines := by
  rw [proceduresOrBatch, Code.TransactSql.procedureBlocks_trimStart,
    Code.TransactSql.batchBlock_trimStart, proceduresOrBatch]

theorem ignoresLayout_deepNesting (maxDepth : Nat) : (deepNesting maxDepth).IgnoresLayout := by
  intro s t h
  simp only [deepNesting, h.congr_lines Code.CSharp.methodBlocks_trimStart,
    h.congr_lines Code.VisualBasic.procedureBlocks_trimStart,
    h.congr_lines proceduresOrBatch_trimStart, h.dialect]

theorem indentBlind_callableHeader? (dialect : Dialect) :
    IndentBlind (callableHeader? dialect) := by
  cases dialect with
  | csharp => exact Code.CSharp.indentBlind_methodHeader?
  | vbnet =>
    intro c line hc
    rw [callableHeader?, Code.VisualBasic.indentBlind_procedureHeader? c line hc, callableHeader?]
  | sql => exact Code.TransactSql.indentBlind_procedureHeader?
  | unknown => exact fun _ _ _ => rfl

theorem ignoresLayout_longParameterList (maxParams : Nat) :
    (longParameterList maxParams).IgnoresLayout := by
  intro s t h
  simp only [longParameterList, h.dialect, List.filterMap_eq_flatMap_toList]
  refine h.flatMap_numberedLines ?_
  intro number c line hc
  simp only [longParamsIssue?, indentBlind_callableHeader? t.dialect c line hc]

theorem ignoresLayout_largeStructure (maxLines maxMethods : Nat) :
    (largeStructure maxLines maxMethods).IgnoresLayout := by
  intro s t h
  simp only [largeStructure, h.congr_lines Code.CSharp.classBlocks_trimStart,
    h.congr_lines Code.VisualBasic.classBlocks_trimStart,
    h.congr_lines Code.TransactSql.procedureBlocks_trimStart, h.dialect]

end Rule
end LineLint
