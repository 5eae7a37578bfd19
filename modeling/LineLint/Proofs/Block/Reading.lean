import LineLint.Code.Block
import Mathlib.Data.List.Forall2

/-! # Reading bodies and searching for blocks

What `BodyReader.read` returns, whatever the reader: the header line at least,
no line that is not there, and everything if no end is found (`read_length_pos`,
`read_length_le`, `read_length_of_open`).  An end that is found depends on the
lines in front of it alone, so lines that are added behind change nothing
(`read_append`), and neither do lines that the reader cannot tell apart
(`read_congr`).

`Scanner.blocksFrom` passes a line or finds a block at it; the three equations
`blocksFrom_skip`, `blocksFrom_of_none` and `blocksFrom_of_some` are all that
later proofs use of it.  A scanner whose bodies have the properties above is
`Lawful`.
-/
namespace LineLint
namespace Code

variable {σ : Type}

namespace BodyReader
variable (reader : BodyReader σ)

theorem read_cons_of_ends {state : σ} {line : List Char} {rest : List (List Char)}
    (h : reader.endsWith (reader.step state line) line = true) :
    reader.read state (line :: rest) = ⟨1, true, reader.step state line⟩ := by
  simp [read, h]

theorem read_singleton {state : σ} {line : List Char}
    (h : reader.endsWith (reader.step state line) line = false) :
    reader.read state [line] = ⟨1, false, reader.step state line⟩ := by
  simp [read, h]

theorem read_cons_of_endsBefore {state : σ} {line next : List Char} {rest : List (List Char)}
    (h : reader.endsWith (reader.step state line) line = false)
    (hnext : reader.endsBefore next = true) :
    reader.read state (line :: next :: rest) = ⟨1, true, reader.step state line⟩ := by
  simp [read, h, hnext]

theorem read_cons_of_goes_on {state : σ} {line next : List Char} {rest : List (List Char)}
    (h : reader.endsWith (reader.step state line) line = false)
    (hnext : reader.endsBefore next = false) :
    reader.read state (line :: next :: rest) =
      (reader.read (reader.step state line) (next :: rest)).succ := by
  simp [read, h, hnext]

/-- A body ends with its first line, or is one line longer than what is read behind it. -/
theorem read_cons (state : σ) (line : List Char) (rest : List (List Char)) :
    (∃ ended, reader.read state (line :: rest) = ⟨1, ended, reader.step state line⟩ ∧
      (ended = false → rest = [])) ∨
    reader.read state (line :: rest) = (reader.read (reader.step state line) rest).succ := by
  cases hends : reader.endsWith (reader.step state line) line with
  | true => exact Or.inl ⟨true, reader.read_cons_of_ends hends, nofun⟩
  | false =>
    cases rest with
    | nil => exact Or.inl ⟨false, reader.read_singleton hends, fun _ => rfl⟩
    | cons next rest =>
      cases hnext : reader.endsBefore next with
      | true => exact Or.inl ⟨true, reader.read_cons_of_endsBefore hends hnext, nofun⟩
      | false => exact Or.inr (reader.read_cons_of_goes_on hends hnext)

theorem read_length_pos (state : σ) (line : List Char) (rest : List (List Char)) :
    0 < (reader.read state (line :: rest)).length := by
  rcases reader.read_cons state line rest with ⟨_, h, _⟩ | h
  · rw [h]; exact Nat.one_pos
  · rw [h]; exact Nat.succ_pos _

theorem read_length_le (state : σ) (lines : List (List Char)) :
    (reader.read state lines).length ≤ lines.length := by
  induction lines generalizing state with
  | nil => exact Nat.le_refl 0
  | cons line rest ih =>
    rcases reader.read_cons state line rest with ⟨_, h, _⟩ | h
    · rw [h]; exact Nat.succ_pos _
    · rw [h]; exact Nat.succ_le_succ (ih _)

/-- A body whose end is not found goes on to the last line. -/
theorem read_length_of_open {state : σ} {lines : List (List Char)}
    (hopen : (reader.read state lines).closed = false) :
    (reader.read state lines).length = lines.length := by
  induction lines generalizing state with
  | nil => rfl
  | cons line rest ih =>
    rcases reader.read_cons state line rest with ⟨ended, h, hlast⟩ | h
    · rw [h] at hopen ⊢
      rw [hlast hopen]
      rfl
    · rw [h] at hopen ⊢
      exact congrArg (· + 1) (ih hopen)

/-- **An end that has been found stays where it is**, whatever lines follow. -/
theorem read_append {state : σ} {lines : List (List Char)} (more : List (List Char))
    (h : (reader.read state lines).closed = true) :
    reader.read state (lines ++ more) = reader.read state lines := by
  induction lines generalizing state with
  | nil => cases h
  | cons line rest ih =>
    cases hends : reader.endsWith (reader.step state line) line with
    | true => rw [List.cons_append, reader.read_cons_of_ends hends, reader.read_cons_of_ends hends]
    | false =>
      cases rest with
      | nil =>
        -- a body that the last line cuts off is not closed
        rw [reader.read_singleton hends] at h
        cases h
      | cons next rest =>
        cases hnext : reader.endsBefore next with
        | true =>
          rw [List.cons_append, List.cons_append, reader.read_cons_of_endsBefore hends hnext,
            reader.read_cons_of_endsBefore hends hnext]
        | false =>
          rw [reader.read_cons_of_goes_on hends hnext] at h ⊢
          rw [List.cons_append, List.cons_append, reader.read_cons_of_goes_on hends hnext,
            ← List.cons_append, ih h]

/-- A reader cannot tell two lines apart if they lead to the same states and end the same
bodies. -/
structure Confuses (line other : List Char) : Prop where
  step : ∀ state, reader.step state line = reader.step state other
  endsWith : ∀ state, reader.endsWith state line = reader.endsWith state other
  endsBefore : reader.endsBefore line = reader.endsBefore other

variable {reader} in
/-- Bodies extend equally far if the reader cannot tell their lines apart. -/
theorem read_congr {lines others : List (List Char)}
    (h : List.Forall₂ reader.Confuses lines others) (state : σ) :
    reader.read state lines = reader.read state others := by
  induction h generalizing state with
  | nil => rfl
  | @cons line other rest more hline hrest ih =>
    -- both bodies take the same branch: end here, end before the next line, or go on
    have hstep : reader.step state line = reader.step state other := hline.step state
    cases hends : reader.endsWith (reader.step state other) other with
    | true =>
      rw [reader.read_cons_of_ends (by rw [hstep, hline.endsWith, hends]),
        reader.read_cons_of_ends hends, hstep]
    | false =>
      have hends' : reader.endsWith (reader.step state line) line = false := by
        rw [hstep, hline.endsWith, hends]
      cases hrest with
      | nil => rw [reader.read_singleton hends', reader.read_singleton hends, hstep]
      | @cons next other' _ _ hnext _ =>
        cases hbefore : reader.endsBefore other' with
        | true =>
          rw [reader.read_cons_of_endsBefore hends' (hnext.endsBefore.trans hbefore),
            reader.read_cons_of_endsBefore hends hbefore, hstep]
        | false =>
          rw [reader.read_cons_of_goes_on hends' (hnext.endsBefore.trans hbefore),
            reader.read_cons_of_goes_on hends hbefore, ih, hstep]

variable {reader} in
/-- Bodies extend equally far if every line is changed into one that the reader cannot tell
from it. -/
theorem read_map {change : List Char → List Char}
    (h : ∀ line, reader.Confuses (change line) line) (state : σ) (lines : List (List Char)) :
    reader.read state (lines.map change) = reader.read state lines :=
  read_congr (List.forall₂_map_left_iff.mpr (List.forall₂_same.mpr fun line _ => h line)) state

end BodyReader

/-! ## The search for blocks -/

namespace Scanner
variable {scanner : Scanner}

theorem blocksFrom_skip (scanner : Scanner) (number skip : Nat) (line : List Char)
    (rest : List (List Char)) :
    scanner.blocksFrom number (skip + 1) (line :: rest) =
      scanner.blocksFrom (number + 1) skip rest := rfl

theorem blocksFrom_of_none {line : List Char} (h : scanner.header? line = none) (number : Nat)
    (rest : List (List Char)) :
    scanner.blocksFrom number 0 (line :: rest) = scanner.blocksFrom (number + 1) 0 rest := by
  simp only [blocksFrom, h]

/-- The block that a header line opens on the given lines. -/
def blockAt (scanner : Scanner) (number : Nat) (name : List Char) (lines : List (List Char)) :
    Block where
  name := name
  start := number
  stop := number + (scanner.body lines).length - 1
  closed := (scanner.body lines).closed
  maxDepth := (scanner.body lines).maxDepth
  methods := (scanner.body lines).methods

theorem blocksFrom_of_some {line name : List Char} (h : scanner.header? line = some name)
    (number : Nat) (rest : List (List Char)) :
    scanner.blocksFrom number 0 (line :: rest) =
      scanner.blockAt number name (line :: rest) ::
        scanner.blocksFrom (number + 1) ((scanner.body (line :: rest)).length - 1) rest := by
  simp only [blocksFrom, h, blockAt]

end Scanner

/-- What a search for blocks relies on: bodies have at least the header line, stay inside the
text, reach its end unless they close, and do not change with what follows once closed. -/
structure Scanner.Lawful (scanner : Scanner) : Prop where
  length_pos : ∀ line rest, 0 < (scanner.body (line :: rest)).length
  length_le : ∀ lines, (scanner.body lines).length ≤ lines.length
  length_of_open : ∀ lines, (scanner.body lines).closed = false →
    (scanner.body lines).length = lines.length
  body_append : ∀ lines more, (scanner.body lines).closed = true →
    scanner.body (lines ++ more) = scanner.body lines

/-- A scanner is lawful if its bodies extend as far as a reader goes, and are the same again
whenever the reader goes equally far. -/
theorem Scanner.lawful_of_read {scanner : Scanner} (reader : BodyReader σ)
    (hlength : ∀ lines, (scanner.body lines).length = (reader.read reader.start lines).length)
    (hclosed : ∀ lines, (scanner.body lines).closed = (reader.read reader.start lines).closed)
    (hbody : ∀ lines more,
      reader.read reader.start (lines ++ more) = reader.read reader.start lines →
        scanner.body (lines ++ more) = scanner.body lines) :
    scanner.Lawful where
  length_pos line rest := by
    rw [hlength]
    exact reader.read_length_pos _ line rest
  length_le lines := by
    rw [hlength]
    exact reader.read_length_le _ lines
  length_of_open lines h := by
    rw [hclosed] at h
    rw [hlength, reader.read_length_of_open h]
  body_append lines more h := by
    rw [hclosed] at h
    exact hbody lines more (reader.read_append more h)

/-- A block under another name. -/
def Block.rename (f : List Char → List Char) (block : Block) : Block :=
  { block with name := f block.name }

/-- **Lines that a scanner cannot tell apart have the same blocks**, up to the way names
change from one line to the other. -/
theorem Scanner.blocksFrom_congr {scanner : Scanner} {alike : List Char → List Char → Prop}
    {f : List Char → List Char}
    (hheader : ∀ {line other}, alike line other →
      scanner.header? other = (scanner.header? line).map f)
    (hbody : ∀ {lines others}, List.Forall₂ alike lines others →
      scanner.body others = scanner.body lines)
    {lines others : List (List Char)} (h : List.Forall₂ alike lines others) (number skip : Nat) :
    scanner.blocksFrom number skip others =
      (scanner.blocksFrom number skip lines).map (Block.rename f) := by
  induction h generalizing number skip with
  | nil => rfl
  | @cons line other rest more hline hrest ih =>
    cases skip with
    | succ skip => rw [blocksFrom_skip, blocksFrom_skip, ih]
    | zero =>
      have hother := hheader hline
      cases hname : scanner.header? line with
      | none =>
        rw [hname] at hother
        rw [blocksFrom_of_none hother, blocksFrom_of_none hname, ih]
      | some name =>
        rw [hname] at hother
        have hsame := hbody (List.Forall₂.cons hline hrest)
        rw [blocksFrom_of_some hother, blocksFrom_of_some hname, ih, hsame, List.map_cons]
        simp only [blockAt, hsame, Block.rename]

/-- A scanner finds the same blocks, up to their names, if every line is changed in a way that
neither its header lines nor its bodies show. -/
theorem Scanner.blocks_map {scanner : Scanner} {change f : List Char → List Char}
    (hheader : ∀ line, scanner.header? (change line) = (scanner.header? line).map f)
    (hbody : ∀ lines : List (List Char), scanner.body (lines.map change) = scanner.body lines)
    (lines : List (List Char)) :
    scanner.blocks (lines.map change) = (scanner.blocks lines).map (Block.rename f) := by
  have hlines : List.Forall₂ (fun line other => other = change line) lines (lines.map change) :=
    List.forall₂_map_right_iff.mpr (List.forall₂_same.mpr fun _ _ => rfl)
  refine Scanner.blocksFrom_congr ?_ ?_ hlines 1 0
  · rintro line _ rfl
    exact hheader line
  · intro lines others h
    obtain rfl : others = lines.map change := by
      induction h with
      | nil => rfl
      | cons hline _ ih => rw [hline, ih, List.map_cons]
    exact hbody lines

end Code
end LineLint
