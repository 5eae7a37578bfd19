import LineLint.Code.Block.Batches
import LineLint.Code.Block.Keywords
import LineLint.Proofs.Block.Reading
import LineLint.Proofs.LetterCase.Headers

/-! # Blocks in small letters

Nesting is counted in keywords, so the blocks of VB.NET and T-SQL are the same in
small letters but for their names.
-/
namespace LineLint
namespace Code

open Text (asciiLower)

/-- The block with its name in small letters. -/
def Block.lower : Block → Block :=
  Block.rename asciiLower

namespace VisualBasic

theorem isCommentLine_asciiLower (line : List Char) :
    isCommentLine (asciiLower line) = isCommentLine line := by
  rw [isCommentLine, Text.trimStart_asciiLower, Text.asciiLower_asciiLower,
    Text.isPrefixOf_asciiLower (by decide), isCommentLine]

theorem opensBlock_asciiLower (code : List Char) :
    opensBlock (asciiLower code) = opensBlock code := by
  rw [opensBlock, bodyHeader?_asciiLower, Option.isSome_map,
    Pattern.occursIn_lower caseBlind_classPattern,
    Pattern.occursIn_lower caseBlind_ifThenPattern, opensBlock]

theorem delta_asciiLower (line : List Char) : delta (asciiLower line) = delta line := by
  rw [delta, isCommentLine_asciiLower, stripComment_asciiLower, delta]
  simp only [Pattern.occursIn_lower caseBlind_blockEndPattern, opensBlock_asciiLower]

theorem confuses_procedureReader (line : List Char) :
    procedureReader.Confuses (asciiLower line) line where
  step state := by simp only [procedureReader, delta_asciiLower]
  endsWith _ := by simp only [procedureReader, procedureEnd?_asciiLower]
  endsBefore := rfl

theorem confuses_classReader (line : List Char) :
    classReader.Confuses (asciiLower line) line where
  step state := by
    simp only [classReader, procedureHeader?_asciiLower, Option.isSome_map]
  endsWith _ := by simp only [classReader, endsClass_asciiLower]
  endsBefore := rfl

/-- Procedures of VB.NET are the same in small letters. -/
theorem procedureBlocks_asciiLower (lines : List (List Char)) :
    procedureBlocks (lines.map asciiLower) = (procedureBlocks lines).map Block.lower := by
  refine Scanner.blocks_map ?_ ?_ lines
  · intro line
    simp only [procedureScanner, bodyHeader?_asciiLower, Option.map_map]
    rfl
  · intro lines
    simp only [procedureScanner, BodyReader.read_map confuses_procedureReader]

/-- Classes of VB.NET are the same in small letters. -/
theorem classBlocks_asciiLower (lines : List (List Char)) :
    classBlocks (lines.map asciiLower) = (classBlocks lines).map Block.lower := by
  refine Scanner.blocks_map className?_asciiLower ?_ lines
  intro lines
  simp only [classScanner, BodyReader.read_map confuses_classReader]

end VisualBasic

namespace TransactSql

theorem delta_asciiLower (line : List Char) : delta (asciiLower line) = delta line := by
  rw [delta, Pattern.count_lower caseBlind_beginPattern,
    Pattern.count_lower caseBlind_beginTransactionPattern,
    Pattern.count_lower caseBlind_endPattern, delta]

theorem confuses_procedureReader (line : List Char) :
    procedureReader.Confuses (asciiLower line) line where
  step state := by simp only [procedureReader, delta_asciiLower]
  endsWith _ := rfl
  endsBefore := isBatchSeparator_asciiLower line

/-- Procedures of T-SQL are the same in small letters. -/
theorem procedureBlocks_asciiLower (lines : List (List Char)) :
    procedureBlocks (lines.map asciiLower) = (procedureBlocks lines).map Block.lower := by
  refine Scanner.blocks_map ?_ ?_ lines
  · intro line
    simp only [procedureScanner, procedureHeader?_asciiLower, Option.map_map]
    rfl
  · intro lines
    simp only [procedureScanner, BodyReader.read_map confuses_procedureReader]

theorem batchBlock_asciiLower (lines : List (List Char)) :
    batchBlock (lines.map asciiLower) = batchBlock lines := by
  simp only [batchBlock, List.foldl_map, delta_asciiLower, List.length_map]

end TransactSql
end Code
end LineLint
