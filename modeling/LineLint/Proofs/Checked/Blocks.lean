import LineLint.Proofs.Block.Layout
import LineLint.Proofs.Checked.Headers
import LineLint.Rule.Branching

/-! # Blocks found by index

The search for blocks as two loops over the indices of lines.  The inner one reads a
body from its header line on and gives the index of the last line; the outer one goes
on behind that line, and counts it as a failure if this is no step forward.  A checked
reader or scanner `Follows` the one it stands for if their parts agree, and then the
loops find what `BodyReader.read` and `Scanner.blocksFrom` find
(`BodyReader.Follows.readAt_eq`, `Scanner.Follows.blocksAt_eq`).  The five kinds of
blocks are brought together in `blocks_eq`.

With the bounds of a block, its span is a subtraction that does not fall below zero
(`span_eq`), and its lines are in range (`linesOf_eq`).
-/
namespace LineLint
namespace Checked

open Code (Block Body BlockKind)

variable {σ : Type}

/-! ## Bodies -/

/-- A way of reading the lines of a body, by steps that may fail. -/
structure BodyReader (σ : Type) where
  /-- The state in front of the header line. -/
  start : σ
  /-- The state behind a line. -/
  step : σ → List Char → Option σ
  /-- Whether the body ends with a line, given the state behind it. -/
  endsWith : σ → List Char → Option Bool
  /-- Whether the body ends in front of a line that is not its header. -/
  endsBefore : List Char → Bool

/-- How far a body extends, and the state behind it. -/
structure Extent (σ : Type) where
  /-- Index of the last line. -/
  stop : Nat
  /-- Whether the end of the body was found. -/
  closed : Bool
  /-- The state behind the last line of the body. -/
  state : σ

/-- Reads the body that starts at index `start` from index `j` on. -/
def BodyReader.readAt (reader : BodyReader σ) (lines : List (List Char)) (start j : Nat)
    (state : σ) : Option (Extent σ) :=
  if j < lines.length then do
    let line ← lines[j]?
    if start < j && reader.endsBefore line then
      let stop ← Nat.psub j 1
      return ⟨stop, true, state⟩
    else
      let state ← reader.step state line
      if ← reader.endsWith state line then return ⟨j, true, state⟩
      else reader.readAt lines start (j + 1) state
  else some ⟨lines.length - 1, false, state⟩
termination_by lines.length - j

/-- Behind the last line, the end of the body has not been found. -/
theorem BodyReader.readAt_end (reader : BodyReader σ) (front : List (List Char))
    (line : List Char) (start : Nat) (state : σ) :
    reader.readAt (front ++ [line]) start (front.length + 1) state =
      some ⟨front.length, false, state⟩ := by
  have hlength : (front ++ [line]).length = front.length + 1 := List.length_append
  rw [BodyReader.readAt, hlength, if_neg (Nat.lt_irrefl _), Nat.add_sub_cancel]

/-- A checked reader does what a reader does, and does not fail. -/
structure BodyReader.Follows (checked : BodyReader σ) (reader : Code.BodyReader σ) : Prop where
  start : checked.start = reader.start
  step : ∀ state line, checked.step state line = some (reader.step state line)
  endsWith : ∀ state line, checked.endsWith state line = some (reader.endsWith state line)
  endsBefore : ∀ line, checked.endsBefore line = reader.endsBefore line

namespace BodyReader.Follows

variable {checked : BodyReader σ} {reader : Code.BodyReader σ}

/-- One round of the loop: the body ends in front of the line or with it, or goes on. -/
theorem readAt_cons (h : checked.Follows reader) (front : List (List Char)) (line : List Char)
    (rest : List (List Char)) (start : Nat) (state : σ) :
    checked.readAt (front ++ line :: rest) start front.length state =
      if start < front.length && reader.endsBefore line then
        some ⟨front.length - 1, true, state⟩
      else if reader.endsWith (reader.step state line) line then
        some ⟨front.length, true, reader.step state line⟩
      else
        checked.readAt (front ++ line :: rest) start (front.length + 1)
          (reader.step state line) := by
  have hlt : front.length < (front ++ line :: rest).length := by simp
  have hline : (front ++ line :: rest)[front.length]? = some line := by simp
  rw [BodyReader.readAt, if_pos hlt, hline]
  simp only [Option.bind_eq_bind, Option.bind_some, h.step, h.endsWith, h.endsBefore]
  by_cases hbefore : (start < front.length && reader.endsBefore line) = true
  · have hpos : 1 ≤ front.length :=
      Nat.one_le_of_lt (of_decide_eq_true (Bool.and_eq_true_iff.mp hbefore).1)
    rw [if_pos hbefore, if_pos hbefore, Nat.psub_eq_sub hpos]
    rfl
  · rw [if_neg hbefore, if_neg hbefore]
    rfl

/-- **The loop over a body** stays among the lines and stops where the body does. -/
theorem readAt_eq (h : checked.Follows reader) {start : Nat} (front : List (List Char))
    (line : List Char) (rest : List (List Char)) (state : σ) (hstart : start ≤ front.length)
    (hinside : (start < front.length && reader.endsBefore line) = false) :
    checked.readAt (front ++ line :: rest) start front.length state =
      some ⟨front.length + (reader.read state (line :: rest)).length - 1,
        (reader.read state (line :: rest)).closed,
        (reader.read state (line :: rest)).state⟩ := by
  induction rest generalizing front line state with
  | nil =>
    rw [h.readAt_cons, hinside, if_neg Bool.false_ne_true]
    cases hends : reader.endsWith (reader.step state line) line with
    | true => rw [if_pos rfl, reader.read_cons_of_ends hends, Nat.add_sub_cancel]
    | false =>
      rw [if_neg Bool.false_ne_true, reader.read_singleton hends,
        checked.readAt_end front line start, Nat.add_sub_cancel]
  | cons next rest ih =>
    rw [h.readAt_cons, hinside, if_neg Bool.false_ne_true]
    cases hends : reader.endsWith (reader.step state line) line with
    | true => rw [if_pos rfl, reader.read_cons_of_ends hends, Nat.add_sub_cancel]
    | false =>
      rw [if_neg Bool.false_ne_true]
      cases hnext : reader.endsBefore next with
      | true =>
        have hround := h.readAt_cons (front ++ [line]) next rest start (reader.step state line)
        have hlt : (start < front.length + 1 && reader.endsBefore next) = true := by
          rw [hnext, Bool.and_true, decide_eq_true (Nat.lt_succ_of_le hstart)]
        rw [List.length_append, List.length_singleton, List.append_assoc, List.singleton_append,
          if_pos hlt] at hround
        rw [hround, reader.read_cons_of_endsBefore hends hnext]
      | false =>
        have hmore := ih (front ++ [line]) next (reader.step state line)
          (by rw [List.length_append]; omega) (by rw [hnext, Bool.and_false])
        rw [List.length_append, List.length_singleton, List.append_assoc,
          List.singleton_append] at hmore
        rw [hmore, reader.read_cons_of_goes_on hends hnext]
        simp only [Code.Extent.succ, Nat.add_assoc, Nat.add_comm 1]

/-- The body that starts with a line, read from its index on. -/
theorem readAt_start (h : checked.Follows reader) (front : List (List Char)) (line : List Char)
    (rest : List (List Char)) :
    checked.readAt (front ++ line :: rest) front.length front.length checked.start =
      some ⟨front.length + (reader.read reader.start (line :: rest)).length - 1,
        (reader.read reader.start (line :: rest)).closed,
        (reader.read reader.start (line :: rest)).state⟩ := by
  rw [h.start]
  refine h.readAt_eq front line rest reader.start (Nat.le_refl _) ?_
  rw [decide_eq_false (Nat.lt_irrefl _), Bool.false_and]

end BodyReader.Follows

/-! ## The search for blocks -/

/-- What a body amounts to once it has been read. -/
structure Reading where
  /-- Index of the last line. -/
  stop : Nat
  /-- Whether the end of the body was found. -/
  closed : Bool
  /-- Deepest nesting inside the body. -/
  maxDepth : Nat
  /-- Number of callable headers inside the body. -/
  methods : Nat

/-- What is read of a body that starts at index `i`. -/
def Reading.at (i : Nat) (body : Body) : Reading :=
  ⟨i + body.length - 1, body.closed, body.maxDepth, body.methods⟩

/-- A way of finding blocks, by reads that may fail. -/
structure Scanner where
  /-- The name that a header line declares. -/
  header? : List Char → Option (Option (List Char))
  /-- The body that starts at an index. -/
  body : List (List Char) → Nat → Option Reading

/-- The blocks in the lines from index `i` on. -/
def Scanner.blocksAt (scanner : Scanner) (lines : List (List Char)) (i : Nat) :
    Option (List Block) :=
  if i < lines.length then do
    let line ← lines[i]?
    match ← scanner.header? line with
    | none => scanner.blocksAt lines (i + 1)
    | some name =>
      let body ← scanner.body lines i
      if i ≤ body.stop then
        let more ← scanner.blocksAt lines (body.stop + 1)
        return { name
                 start := i + 1
                 stop := body.stop + 1
                 closed := body.closed
                 maxDepth := body.maxDepth
                 methods := body.methods } :: more
      else none
  else some []
termination_by lines.length - i

/-- A checked scanner finds what a scanner finds, and does not fail. -/
structure Scanner.Follows (checked : Scanner) (scanner : Code.Scanner) : Prop where
  header : ∀ line, checked.header? line = some (scanner.header? line)
  body : ∀ front line rest, checked.body (front ++ line :: rest) front.length =
    some (.at front.length (scanner.body (line :: rest)))

/-- Lines that belong to an earlier block are passed. -/
theorem blocksFrom_drop (scanner : Code.Scanner) (number skip : Nat) (lines : List (List Char)) :
    scanner.blocksFrom number skip lines =
      scanner.blocksFrom (number + skip) 0 (lines.drop skip) := by
  induction lines generalizing number skip with
  | nil => rw [List.drop_nil]; rfl
  | cons line rest ih =>
    cases skip with
    | zero => rfl
    | succ skip =>
      rw [scanner.blocksFrom_skip, ih, List.drop_succ_cons, Nat.add_assoc, Nat.add_comm 1]

namespace Scanner.Follows

variable {checked : Scanner} {scanner : Code.Scanner}

/-- A line that is no header is passed. -/
theorem blocksAt_of_none (h : checked.Follows scanner) (front : List (List Char))
    {line : List Char} (rest : List (List Char)) (hline : scanner.header? line = none) :
    checked.blocksAt (front ++ line :: rest) front.length =
      checked.blocksAt (front ++ line :: rest) (front.length + 1) := by
  have hlt : front.length < (front ++ line :: rest).length := by simp
  have hget : (front ++ line :: rest)[front.length]? = some line := by simp
  rw [Scanner.blocksAt, if_pos hlt, hget]
  simp only [Option.bind_eq_bind, Option.bind_some, h.header, hline]

/-- A header line opens a block, and the search goes on behind it. -/
theorem blocksAt_of_some (h : checked.Follows scanner) (hlawful : scanner.Lawful)
    (front : List (List Char)) {line name : List Char} (rest : List (List Char))
    (hline : scanner.header? line = some name) :
    checked.blocksAt (front ++ line :: rest) front.length =
      (checked.blocksAt (front ++ line :: rest)
          (front.length + (scanner.body (line :: rest)).length)).map
        (scanner.blockAt (front.length + 1) name (line :: rest) :: ·) := by
  have hlt : front.length < (front ++ line :: rest).length := by simp
  have hget : (front ++ line :: rest)[front.length]? = some line := by simp
  have hpos := hlawful.length_pos line rest
  have hforward : front.length ≤ front.length + (scanner.body (line :: rest)).length - 1 := by
    omega
  have hstop : front.length + (scanner.body (line :: rest)).length - 1 + 1 =
      front.length + (scanner.body (line :: rest)).length := by omega
  have hnumber : front.length + 1 + (scanner.body (line :: rest)).length - 1 =
      front.length + (scanner.body (line :: rest)).length := by omega
  rw [Scanner.blocksAt, if_pos hlt, hget]
  simp only [Option.bind_eq_bind, Option.bind_some, h.header, hline, h.body, Reading.at,
    if_pos hforward, hstop, Code.Scanner.blockAt, hnumber]
  cases checked.blocksAt (front ++ line :: rest)
    (front.length + (scanner.body (line :: rest)).length) <;> rfl

/-- **The loop over blocks** stays among the lines, goes forward, and finds all of them. -/
theorem blocksAt_eq (h : checked.Follows scanner) (hlawful : scanner.Lawful)
    (front rest : List (List Char)) :
    checked.blocksAt (front ++ rest) front.length =
      some (scanner.blocksFrom (front.length + 1) 0 rest) := by
  -- by induction on the number of lines that are left, since a block may take many
  induction hn : rest.length using Nat.strong_induction_on generalizing front rest with
  | _ n ih =>
  subst hn
  cases rest with
  | nil =>
    rw [Scanner.blocksAt, if_neg (by rw [List.append_nil]; exact Nat.lt_irrefl _)]
    rfl
  | cons line rest =>
    cases hline : scanner.header? line with
    | none =>
      have hmore := ih rest.length (Nat.lt_succ_self _) (front ++ [line]) rest rfl
      rw [List.length_append, List.length_singleton, List.append_assoc,
        List.singleton_append] at hmore
      rw [h.blocksAt_of_none front rest hline, hmore, Code.Scanner.blocksFrom_of_none hline]
    | some name =>
      have hpos := hlawful.length_pos line rest
      have hle := hlawful.length_le (line :: rest)
      have hmore := ih ((line :: rest).drop (scanner.body (line :: rest)).length).length
        (by rw [List.length_drop]; omega)
        (front ++ (line :: rest).take (scanner.body (line :: rest)).length)
        ((line :: rest).drop (scanner.body (line :: rest)).length) rfl
      rw [List.append_assoc, List.take_append_drop, List.length_append, List.length_take,
        Nat.min_eq_left hle] at hmore
      obtain ⟨k, hk⟩ := Nat.exists_eq_add_one.mpr hpos
      have hskip := blocksFrom_drop scanner (front.length + 1 + 1) k rest
      have hnumber : front.length + 1 + 1 + k = front.length + (k + 1) + 1 := by omega
      rw [hk, List.drop_succ_cons] at hmore
      rw [h.blocksAt_of_some hlawful front rest hline, Code.Scanner.blocksFrom_of_some hline, hk,
        Nat.add_sub_cancel, hskip, hnumber, hmore]
      rfl

end Scanner.Follows

/-! ## The five kinds -/

namespace CSharp

open Code.CSharp (BraceState)

/-- Reads a body in braces. -/
def braceReader : BodyReader BraceState where
  start := .initial
  step := fun state line => some (line.foldl BraceState.push state)
  endsWith := fun state _ => some state.isComplete
  endsBefore := fun _ => false

/-- Number of lines with a method header outside of comments. -/
def countMethods (lines : List (List Char)) : Option Nat := do
  let headers ← lines.mapM codeHeader?
  return headers.countP Option.isSome

/-- Method bodies. -/
def methodScanner : Scanner where
  header? := fun line => do
    match ← codeHeader? line with
    | some header => return if header.bodiless then none else some header.name
    | none => return none
  body := fun lines i => do
    let extent ← braceReader.readAt lines i i braceReader.start
    return ⟨extent.stop, extent.closed, extent.state.maxDepth.toNat, 0⟩

/-- Class bodies, with the number of method headers in each. -/
def classScanner : Scanner where
  header? := fun line => do
    let code ← stripComment line Code.CSharp.commentMarker
    className? code
  body := fun lines i => do
    let extent ← braceReader.readAt lines i i braceReader.start
    let body ← range? lines i (extent.stop + 1)
    let methods ← countMethods body
    return ⟨extent.stop, extent.closed, extent.state.maxDepth.toNat, methods⟩

theorem follows_braceReader : braceReader.Follows Code.CSharp.braceReader where
  start := rfl
  step _ _ := rfl
  endsWith _ _ := rfl
  endsBefore _ := rfl

theorem countMethods_eq (lines : List (List Char)) :
    countMethods lines = some (Code.CSharp.countMethods lines) := by
  rw [countMethods, mapM_eq_some fun line _ => codeHeader?_eq line]
  simp only [Option.bind_eq_bind, Option.bind_some, List.countP_map]
  rfl

theorem follows_methodScanner : methodScanner.Follows Code.CSharp.methodScanner where
  header line := by
    simp only [methodScanner, codeHeader?_eq, Option.bind_eq_bind, Option.bind_some,
      Code.CSharp.methodScanner]
    cases Code.CSharp.codeHeader? line <;> rfl
  body front line rest := by
    simp only [methodScanner, follows_braceReader.readAt_start]
    rfl

theorem follows_classScanner : classScanner.Follows Code.CSharp.classScanner where
  header line := by
    simp only [classScanner, stripComment_eq, Option.bind_eq_bind, Option.bind_some,
      className?_eq, Code.CSharp.classScanner]
  body front line rest := by
    have hpos := Code.CSharp.braceReader.read_length_pos Code.CSharp.braceReader.start line rest
    have hle := Code.CSharp.braceReader.read_length_le Code.CSharp.braceReader.start (line :: rest)
    have hstop : front.length +
        (Code.CSharp.braceReader.read Code.CSharp.braceReader.start (line :: rest)).length - 1 + 1 =
          front.length +
            (Code.CSharp.braceReader.read Code.CSharp.braceReader.start (line :: rest)).length := by
      omega
    simp only [classScanner, follows_braceReader.readAt_start, Option.bind_eq_bind,
      Option.bind_some, hstop, range?_append front hle, countMethods_eq]
    rfl

end CSharp

namespace VisualBasic

open Code (DepthState)

/-- Reads a procedure up to its terminator. -/
def procedureReader : BodyReader DepthState where
  start := .initial
  step := fun state line => (delta line).map state.apply
  endsWith := fun _ line => (procedureEnd? line).map Option.isSome
  endsBefore := fun _ => false

/-- Reads a class up to its terminator and counts its procedure headers. -/
def classReader : BodyReader Nat where
  start := 0
  step := fun methods line => do
    let header ← procedureHeader? line
    return if header.isSome then methods + 1 else methods
  endsWith := fun _ line => some (Code.VisualBasic.endsClass line)
  endsBefore := fun _ => false

/-- Procedure bodies. -/
def procedureScanner : Scanner where
  header? := fun line => do
    let header ← bodyHeader? line
    return header.map (·.name)
  body := fun lines i => do
    let extent ← procedureReader.readAt lines i i procedureReader.start
    return ⟨extent.stop, extent.closed, extent.state.maxDepth, 0⟩

/-- Class bodies, with the number of procedure headers in each. -/
def classScanner : Scanner where
  header? := className?
  body := fun lines i => do
    let extent ← classReader.readAt lines i i classReader.start
    return ⟨extent.stop, extent.closed, 0, extent.state⟩

theorem follows_procedureReader :
    procedureReader.Follows Code.VisualBasic.procedureReader where
  start := rfl
  step state line := by
    simp only [procedureReader, delta_eq]
    rfl
  endsWith _ line := by
    simp only [procedureReader, procedureEnd?_eq]
    rfl
  endsBefore _ := rfl

theorem follows_classReader : classReader.Follows Code.VisualBasic.classReader where
  start := rfl
  step methods line := by
    simp only [classReader, procedureHeader?_eq]
    rfl
  endsWith _ _ := rfl
  endsBefore _ := rfl

theorem follows_procedureScanner :
    procedureScanner.Follows Code.VisualBasic.procedureScanner where
  header line := by
    simp only [procedureScanner, bodyHeader?_eq]
    rfl
  body front line rest := by
    simp only [procedureScanner, follows_procedureReader.readAt_start]
    rfl

theorem follows_classScanner : classScanner.Follows Code.VisualBasic.classScanner where
  header := className?_eq
  body front line rest := by
    simp only [classScanner, follows_classReader.readAt_start]
    rfl

end VisualBasic

namespace TransactSql

open Code.TransactSql (BatchState)

/-- Reads a body up to its matching `END` or the next separator. -/
def procedureReader : BodyReader BatchState where
  start := ⟨.initial, false⟩
  step := fun state line => some (state.apply (Code.TransactSql.delta line))
  endsWith := fun state _ => some (state.entered && state.levels.depth == 0)
  endsBefore := Code.TransactSql.isBatchSeparator

/-- Procedure and function bodies. -/
def procedureScanner : Scanner where
  header? := fun line => do
    let header ← procedureHeader? line
    return header.map (·.name)
  body := fun lines i => do
    let extent ← procedureReader.readAt lines i i procedureReader.start
    return ⟨extent.stop, extent.closed, extent.state.levels.maxDepth, 0⟩

theorem follows_procedureReader :
    procedureReader.Follows Code.TransactSql.procedureReader where
  start := rfl
  step _ _ := rfl
  endsWith _ _ := rfl
  endsBefore _ := rfl

theorem follows_procedureScanner :
    procedureScanner.Follows Code.TransactSql.procedureScanner where
  header line := by
    simp only [procedureScanner, procedureHeader?_eq]
    rfl
  body front line rest := by
    simp only [procedureScanner, follows_procedureReader.readAt_start]
    rfl

end TransactSql

/-- How the blocks of a kind are found with checks. -/
def scanner : BlockKind → Scanner
  | .csharpMethod => CSharp.methodScanner
  | .csharpClass => CSharp.classScanner
  | .vbnetProcedure => VisualBasic.procedureScanner
  | .vbnetClass => VisualBasic.classScanner
  | .sqlProcedure => TransactSql.procedureScanner

theorem follows_scanner (kind : BlockKind) : (scanner kind).Follows kind.scanner := by
  cases kind with
  | csharpMethod => exact CSharp.follows_methodScanner
  | csharpClass => exact CSharp.follows_classScanner
  | vbnetProcedure => exact VisualBasic.follows_procedureScanner
  | vbnetClass => exact VisualBasic.follows_classScanner
  | sqlProcedure => exact TransactSql.follows_procedureScanner

/-- The blocks of a kind in a list of lines. -/
def blocks (kind : BlockKind) (lines : List (List Char)) : Option (List Block) :=
  (scanner kind).blocksAt lines 0

/-- **All five searches** stay among the lines and come to an end. -/
theorem blocks_eq (kind : BlockKind) (lines : List (List Char)) :
    blocks kind lines = some (kind.blocks lines) := by
  rw [kind.blocks_eq]
  exact (follows_scanner kind).blocksAt_eq kind.lawful [] lines

/-! ## What is read of a block -/

/-- Closing line minus header line. -/
def span (block : Block) : Option Nat :=
  Nat.psub block.stop block.start

/-- The lines that a block extends over. -/
def linesOf (lines : List (List Char)) (block : Block) : Option (List (List Char)) := do
  let start ← Nat.psub block.start 1
  range? lines start block.stop

variable {kind : BlockKind} {lines : List (List Char)} {block : Block}

theorem span_eq (h : block ∈ kind.blocks lines) : span block = some block.span :=
  Nat.psub_eq_sub (kind.bounds h).2.1

theorem linesOf_eq (h : block ∈ kind.blocks lines) :
    linesOf lines block = some (Rule.linesOf lines block) := by
  obtain ⟨hstart, hspan, hstop⟩ := kind.bounds h
  have hrange : block.start - 1 ≤ block.stop ∧ block.stop ≤ lines.length := by omega
  have hlength : block.stop - (block.start - 1) = block.stop + 1 - block.start := by omega
  rw [linesOf, Nat.psub_eq_sub hstart]
  simp only [Option.bind_eq_bind, Option.bind_some, range?, if_pos hrange, hlength]
  rfl

end Checked
end LineLint
