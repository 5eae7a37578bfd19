import LineLint.Code.Block
import LineLint.Code.Nesting

/-! # Bodies between keywords

The procedures and classes of VB.NET.  A procedure ends with the first
`End Sub` or `End Function`, whichever kind it is, and a class with the first
`End Class`.
-/
namespace LineLint
namespace Code
namespace VisualBasic

/-- Reads a procedure up to its terminator. -/
def procedureReader : BodyReader DepthState where
  start := .initial
  step := fun state line => state.apply (delta line)
  endsWith := fun _ line => (procedureEnd? line).isSome
  endsBefore := fun _ => false

/-- Reads a class up to its terminator and counts its procedure headers. -/
def classReader : BodyReader Nat where
  start := 0
  step := fun methods line => if (procedureHeader? line).isSome then methods + 1 else methods
  endsWith := fun _ line => endsClass line
  endsBefore := fun _ => false

/-- Procedure bodies. -/
def procedureScanner : Scanner where
  header? := fun line => (bodyHeader? line).map (·.name)
  body := fun lines =>
    let extent := procedureReader.read procedureReader.start lines
    { length := extent.length
      closed := extent.closed
      maxDepth := extent.state.maxDepth
      methods := 0 }

/-- Class bodies, with the number of procedure headers in each. -/
def classScanner : Scanner where
  header? := className?
  body := fun lines =>
    let extent := classReader.read classReader.start lines
    { length := extent.length
      closed := extent.closed
      maxDepth := 0
      methods := extent.state }

/-- The procedure bodies in a list of lines. -/
def procedureBlocks (lines : List (List Char)) : List Block :=
  procedureScanner.blocks lines

/-- The class bodies in a list of lines. -/
def classBlocks (lines : List (List Char)) : List Block :=
  classScanner.blocks lines

end VisualBasic
end Code
end LineLint
