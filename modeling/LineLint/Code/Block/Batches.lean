import LineLint.Code.Block
import LineLint.Code.Nesting

/-! # Bodies in batches

The procedures and functions of T-SQL.  A body ends with the line whose `END`
brings the depth back to zero, or in front of the next `GO`.  A text without
procedures is one anonymous batch.
-/
namespace LineLint
namespace Code
namespace TransactSql

/-- What is known of a body: its nesting, and whether a `BEGIN` has been seen. -/
structure BatchState where
  /-- Depth of `BEGIN` and `END`. -/
  levels : DepthState
  /-- Whether a block has been opened. -/
  entered : Bool
  deriving DecidableEq, Repr

/-- The state behind a line. -/
def BatchState.apply (state : BatchState) (delta : Delta) : BatchState :=
  ⟨state.levels.apply delta, state.entered || 0 < delta.opens⟩

/-- Reads a body up to its matching `END` or the next separator. -/
def procedureReader : BodyReader BatchState where
  start := ⟨.initial, false⟩
  step := fun state line => state.apply (delta line)
  endsWith := fun state _ => state.entered && state.levels.depth == 0
  endsBefore := isBatchSeparator

/-- Procedure and function bodies. -/
def procedureScanner : Scanner where
  header? := fun line => (procedureHeader? line).map (·.name)
  body := fun lines =>
    let extent := procedureReader.read procedureReader.start lines
    { length := extent.length
      closed := extent.closed
      maxDepth := extent.state.levels.maxDepth
      methods := 0 }

/-- The procedure bodies in a list of lines. -/
def procedureBlocks (lines : List (List Char)) : List Block :=
  procedureScanner.blocks lines

/-- All lines as one anonymous batch. -/
def batchBlock (lines : List (List Char)) : Block :=
  let levels := lines.foldl (fun levels line => levels.apply (delta line)) DepthState.initial
  { name := []
    start := 1
    stop := max lines.length 1
    closed := true
    maxDepth := levels.maxDepth
    methods := 0 }

end TransactSql
end Code
end LineLint
