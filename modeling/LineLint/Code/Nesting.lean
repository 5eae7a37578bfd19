import LineLint.Code.Comment
import LineLint.Code.Header.CSharp
import LineLint.Code.Header.TransactSql
import LineLint.Code.Header.VisualBasic

/-! # Nesting of a single line

How many blocks a line opens and how many it closes: by braces in C#, by block
keywords in VB.NET, and by `BEGIN` and `END` in T-SQL.
-/
namespace LineLint
namespace Code

/-- What a line opens and closes. -/
structure Delta where
  /-- Number of blocks opened. -/
  opens : Nat
  /-- Number of blocks closed. -/
  closes : Nat
  deriving DecidableEq, Repr

/-- How deeply nested a place is, counted over lines. -/
structure DepthState where
  /-- Blocks open at the moment. -/
  depth : Nat
  /-- Largest depth so far. -/
  maxDepth : Nat
  deriving DecidableEq, Repr

/-- The state behind a line: openings count before closings, and depth never falls below
zero. -/
def DepthState.apply (state : DepthState) (delta : Delta) : DepthState :=
  ⟨state.depth + delta.opens - delta.closes, max state.maxDepth (state.depth + delta.opens)⟩

/-- The state in front of everything. -/
def DepthState.initial : DepthState :=
  ⟨0, 0⟩

namespace CSharp

/-- Every brace counts, wherever it stands on the line. -/
def delta (line : List Char) : Delta :=
  ⟨line.count '{', line.count '}'⟩

end CSharp

namespace VisualBasic

/-- Whether a line is nothing but a comment. -/
def isCommentLine (line : List Char) : Bool :=
  let code := Text.trimStart line
  commentMarker.isPrefixOf code || "rem ".toList.isPrefixOf (Text.asciiLower code)

/-- Whether a line, free of comments, opens a block. -/
def opensBlock (code : List Char) : Bool :=
  (bodyHeader? code).isSome || classPattern.occursIn code || ifThenPattern.occursIn code

/-- A line opens at most one block or closes at most one; `End` goes first. -/
def delta (line : List Char) : Delta :=
  if isCommentLine line then ⟨0, 0⟩
  else
    let code := stripComment line commentMarker
    if blockEndPattern.occursIn code then ⟨0, 1⟩
    else if opensBlock code then ⟨1, 0⟩
    else ⟨0, 0⟩

end VisualBasic

namespace TransactSql

/-- Every `BEGIN` opens but those that begin a transaction, and every `END` closes. -/
def delta (line : List Char) : Delta :=
  ⟨beginPattern.count line - beginTransactionPattern.count line, endPattern.count line⟩

end TransactSql
end Code
end LineLint
