import LineLint.Code.Block
import LineLint.Code.Nesting

/-! # Bodies in braces

The methods and classes of C#.  A body ends on the first line behind which as
many braces have been closed as opened, once one has been opened.  Braces in
strings and comments count like any others.
-/
namespace LineLint
namespace Code
namespace CSharp

/-- What is known of a body in braces: the depth, which may fall below zero before the first
opening brace, the deepest depth so far, and whether a brace has been opened. -/
structure BraceState where
  /-- Opening minus closing braces. -/
  depth : Int
  /-- Largest depth so far. -/
  maxDepth : Int
  /-- Whether there has been an opening brace. -/
  entered : Bool
  deriving DecidableEq, Repr

/-- The state behind one character. -/
def BraceState.push (state : BraceState) (c : Char) : BraceState :=
  if c = '{' then ⟨state.depth + 1, max state.maxDepth (state.depth + 1), true⟩
  else if c = '}' then { state with depth := state.depth - 1 }
  else state

/-- Whether the body is complete. -/
def BraceState.isComplete (state : BraceState) : Bool :=
  state.entered && state.depth ≤ 0

/-- The state in front of a body. -/
def BraceState.initial : BraceState :=
  ⟨0, 0, false⟩

/-- Reads a body up to the line that completes it. -/
def braceReader : BodyReader BraceState where
  start := .initial
  step := fun state line => line.foldl BraceState.push state
  endsWith := fun state _ => state.isComplete
  endsBefore := fun _ => false

/-- Number of lines with a method header outside of comments. -/
def countMethods (lines : List (List Char)) : Nat :=
  lines.countP fun line => (codeHeader? line).isSome

/-- Method bodies. -/
def methodScanner : Scanner where
  header? := fun line =>
    match codeHeader? line with
    | some header => if header.bodiless then none else some header.name
    | none => none
  body := fun lines =>
    let extent := braceReader.read braceReader.start lines
    { length := extent.length
      closed := extent.closed
      maxDepth := extent.state.maxDepth.toNat
      methods := 0 }

/-- Class bodies, with the number of method headers in each. -/
def classScanner : Scanner where
  header? := fun line => className? (stripComment line commentMarker)
  body := fun lines =>
    let extent := braceReader.read braceReader.start lines
    { length := extent.length
      closed := extent.closed
      maxDepth := extent.state.maxDepth.toNat
      methods := countMethods (lines.take extent.length) }

/-- The method bodies in a list of lines. -/
def methodBlocks (lines : List (List Char)) : List Block :=
  methodScanner.blocks lines

/-- The class bodies in a list of lines. -/
def classBlocks (lines : List (List Char)) : List Block :=
  classScanner.blocks lines

end CSharp
end Code
end LineLint
