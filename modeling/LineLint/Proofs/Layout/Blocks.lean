import LineLint.Code.Block.Batches
import LineLint.Code.Block.Braces
import LineLint.Code.Block.Keywords
import LineLint.Proofs.Block.Reading
import LineLint.Proofs.Layout.Headers

/-! # Blocks of indented lines

No reader of bodies can tell an indented line from the line itself, so all five
kinds of blocks are the same whatever the indentation of the lines.
-/
namespace LineLint
namespace Code

open Text (IndentBlind trimStart)

/-- A scanner of which header lines and bodies do not see indentation finds the same blocks. -/
theorem Scanner.blocks_trimStart {scanner : Scanner} (hheader : IndentBlind scanner.header?)
    (hbody : ∀ lines : List (List Char), scanner.body (lines.map trimStart) = scanner.body lines)
    (lines : List (List Char)) :
    scanner.blocks (lines.map trimStart) = scanner.blocks lines := by
  have hname : ∀ line, scanner.header? (trimStart line) = (scanner.header? line).map id := by
    intro line
    rw [hheader.trimStart, Option.map_id]
    rfl
  rw [Scanner.blocks_map hname hbody]
  exact List.map_id' _

/-! ## C# -/

namespace CSharp

theorem indentBlind_foldl_push (state : BraceState) :
    IndentBlind fun line => line.foldl BraceState.push state := by
  intro c line hc
  have hpush : state.push c = state := by
    rw [BraceState.push, if_neg (Text.ne_of_isSpace hc (by decide)),
      if_neg (Text.ne_of_isSpace hc (by decide))]
  simp only [List.foldl_cons, hpush]

theorem confuses_braceReader (line : List Char) : braceReader.Confuses (trimStart line) line where
  step state := (indentBlind_foldl_push state).trimStart line
  endsWith _ := rfl
  endsBefore := rfl

theorem countMethods_trimStart (lines : List (List Char)) :
    countMethods (lines.map trimStart) = countMethods lines := by
  rw [countMethods, List.countP_map, countMethods]
  congr 1
  funext line
  exact congrArg Option.isSome (indentBlind_codeHeader?.trimStart line)

theorem methodBlocks_trimStart (lines : List (List Char)) :
    methodBlocks (lines.map trimStart) = methodBlocks lines := by
  refine Scanner.blocks_trimStart ?_ ?_ lines
  · intro c line hc
    simp only [methodScanner, indentBlind_codeHeader? c line hc]
  · intro lines
    simp only [methodScanner, BodyReader.read_map confuses_braceReader]

theorem classBlocks_trimStart (lines : List (List Char)) :
    classBlocks (lines.map trimStart) = classBlocks lines := by
  refine Scanner.blocks_trimStart (indentBlind_stripComment indentBlind_className? (by decide))
    ?_ lines
  intro lines
  simp only [classScanner, BodyReader.read_map confuses_braceReader, ← List.map_take,
    countMethods_trimStart]

end CSharp

/-! ## VB.NET -/

namespace VisualBasic

theorem confuses_trimStart_procedureReader (line : List Char) :
    procedureReader.Confuses (trimStart line) line where
  step state := by simp only [procedureReader, indentBlind_delta.trimStart line]
  endsWith _ := by simp only [procedureReader, indentBlind_procedureEnd?.trimStart line]
  endsBefore := rfl

theorem confuses_trimStart_classReader (line : List Char) :
    classReader.Confuses (trimStart line) line where
  step state := by simp only [classReader, indentBlind_procedureHeader?.trimStart line]
  endsWith _ := indentBlind_endsClass.trimStart line
  endsBefore := rfl

theorem procedureBlocks_trimStart (lines : List (List Char)) :
    procedureBlocks (lines.map trimStart) = procedureBlocks lines := by
  have hheader : IndentBlind procedureScanner.header? :=
    indentBlind_bodyHeader?.comp (Option.map Header.name)
  refine Scanner.blocks_trimStart hheader ?_ lines
  intro lines
  simp only [procedureScanner, BodyReader.read_map confuses_trimStart_procedureReader]

theorem classBlocks_trimStart (lines : List (List Char)) :
    classBlocks (lines.map trimStart) = classBlocks lines := by
  refine Scanner.blocks_trimStart indentBlind_className? ?_ lines
  intro lines
  simp only [classScanner, BodyReader.read_map confuses_trimStart_classReader]

end VisualBasic

/-! ## T-SQL -/

namespace TransactSql

theorem confuses_trimStart_procedureReader (line : List Char) :
    procedureReader.Confuses (trimStart line) line where
  step state := by simp only [procedureReader, indentBlind_delta.trimStart line]
  endsWith _ := rfl
  endsBefore := indentBlind_isBatchSeparator.trimStart line

theorem procedureBlocks_trimStart (lines : List (List Char)) :
    procedureBlocks (lines.map trimStart) = procedureBlocks lines := by
  have hheader : IndentBlind procedureScanner.header? :=
    indentBlind_procedureHeader?.comp (Option.map Header.name)
  refine Scanner.blocks_trimStart hheader ?_ lines
  intro lines
  simp only [procedureScanner, BodyReader.read_map confuses_trimStart_procedureReader]

theorem batchBlock_trimStart (lines : List (List Char)) :
    batchBlock (lines.map trimStart) = batchBlock lines := by
  simp only [batchBlock, List.foldl_map, indentBlind_delta.trimStart, List.length_map]

end TransactSql
end Code
end LineLint
