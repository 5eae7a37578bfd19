/-! # Blocks of lines

A block is a header line with the lines of its body.  A `Scanner` says which
lines are headers and how a body is read; `Scanner.blocks` finds all blocks of a
text, each search going on behind the block found last, so that blocks inside a
block are part of it.

A body is read line by line, the header line included, by a `BodyReader`: it
keeps a state, and may end the body at the line just read or in front of the
next one.
-/
namespace LineLint
namespace Code

/-- A declaration with the lines it extends over. -/
structure Block where
  /-- The declared name; empty for an anonymous batch. -/
  name : List Char
  /-- Number of the header line, counted from one. -/
  start : Nat
  /-- Number of the closing line, or of the last line if the body never closes. -/
  stop : Nat
  /-- Whether the end of the body was found. -/
  closed : Bool
  /-- Deepest nesting inside the body. -/
  maxDepth : Nat
  /-- Number of callable headers inside the body, for classes. -/
  methods : Nat
  deriving DecidableEq, Repr

/-- Closing line minus header line. -/
def Block.span (block : Block) : Nat :=
  block.stop - block.start

/-- A way of reading the lines of a body. -/
structure BodyReader (σ : Type) where
  /-- The state in front of the header line. -/
  start : σ
  /-- The state behind a line. -/
  step : σ → List Char → σ
  /-- Whether the body ends with a line, given the state behind it. -/
  endsWith : σ → List Char → Bool
  /-- Whether the body ends in front of a line that is not its header. -/
  endsBefore : List Char → Bool

/-- How far a body extends, and the state behind it. -/
structure Extent (σ : Type) where
  /-- Number of lines, the header line included. -/
  length : Nat
  /-- Whether the end of the body was found. -/
  closed : Bool
  /-- The state behind the last line of the body. -/
  state : σ

/-- One line more in front. -/
def Extent.succ {σ : Type} (extent : Extent σ) : Extent σ :=
  { extent with length := extent.length + 1 }

/-- Reads a body from the given state on. -/
def BodyReader.read {σ : Type} (reader : BodyReader σ) (state : σ) : List (List Char) → Extent σ
  | [] => ⟨0, false, state⟩
  | line :: rest =>
    if reader.endsWith (reader.step state line) line then
      ⟨1, true, reader.step state line⟩
    else
      match rest with
      | [] => ⟨1, false, reader.step state line⟩
      | next :: _ =>
        if reader.endsBefore next then ⟨1, true, reader.step state line⟩
        else (reader.read (reader.step state line) rest).succ

/-- What a body amounts to once it has been read. -/
structure Body where
  /-- Number of lines, the header line included. -/
  length : Nat
  /-- Whether the end of the body was found. -/
  closed : Bool
  /-- Deepest nesting inside the body. -/
  maxDepth : Nat
  /-- Number of callable headers inside the body. -/
  methods : Nat
  deriving DecidableEq, Repr

/-- A way of finding blocks. -/
structure Scanner where
  /-- The name that a header line declares. -/
  header? : List Char → Option (List Char)
  /-- The body that starts with the first line given, which is a header line. -/
  body : List (List Char) → Body

/-- The blocks in the lines from number `number` on, once `skip` lines that belong to an
earlier block have been passed. -/
def Scanner.blocksFrom (scanner : Scanner) (number skip : Nat) : List (List Char) → List Block
  | [] => []
  | line :: rest =>
    match skip with
    | skip + 1 => scanner.blocksFrom (number + 1) skip rest
    | 0 =>
      match scanner.header? line with
      | none => scanner.blocksFrom (number + 1) 0 rest
      | some name =>
        let body := scanner.body (line :: rest)
        { name
          start := number
          stop := number + body.length - 1
          closed := body.closed
          maxDepth := body.maxDepth
          methods := body.methods } ::
          scanner.blocksFrom (number + 1) (body.length - 1) rest

/-- The blocks in a list of lines, in their order. -/
def Scanner.blocks (scanner : Scanner) (lines : List (List Char)) : List Block :=
  scanner.blocksFrom 1 0 lines

end Code
end LineLint
