import LineLint.Proofs.Block.Kind
import LineLint.Proofs.LetterCase.Letters
import LineLint.Proofs.Pattern.Beginnings

/-! # Well-formed procedures

A well-formed piece of VB.NET is a neutral line, or a procedure with its header
line, neutral lines and a terminator of its kind.  Whatever pieces stand in a row,
the scanner finds a closed block for each procedure, from its header line to its
terminator, and no others (`procedureBlocks_layout`).

All rests on one fact about lines: a line that closes a procedure is no header
line, since the one begins with an `e` and the other does not
(`procedureHeader?_of_procedureEnd?`).
-/
namespace LineLint
namespace Pattern

variable {keyword : String} {letter : Char} {letters : List Char}

theorem canStay_word (h : keyword.toList = letter :: letters) :
    (word keyword).canStay = false := by
  rw [word, h]
  cases letters <;> rfl

/-- A keyword begins with its first letter. -/
theorem begins_word (h : keyword.toList = letter :: letters) (c : Char) :
    (word keyword).begins c = foldsTo letter c := by
  rw [word, h]
  cases letters with
  | nil => rfl
  | cons next letters => exact Bool.or_false _

end Pattern

namespace Code

/-- A body goes on to the first line that ends it, if lines end bodies by themselves. -/
theorem BodyReader.read_until {σ : Type} {reader : BodyReader σ}
    (hbefore : ∀ line, reader.endsBefore line = false) {front : List (List Char)}
    (hfront : ∀ line ∈ front, ∀ state, reader.endsWith state line = false) {last : List Char}
    (hlast : ∀ state, reader.endsWith state last = true) (rest : List (List Char)) (state : σ) :
    (reader.read state (front ++ last :: rest)).length = front.length + 1 ∧
      (reader.read state (front ++ last :: rest)).closed = true := by
  induction front generalizing state with
  | nil =>
    rw [List.nil_append, reader.read_cons_of_ends (hlast _)]
    exact ⟨rfl, rfl⟩
  | cons line front ih =>
    obtain ⟨hline, hfront⟩ := List.forall_mem_cons.mp hfront
    have hne : front ++ last :: rest ≠ [] := by simp
    obtain ⟨next, more, hmore⟩ := List.exists_cons_of_ne_nil hne
    obtain ⟨hlength, hclosed⟩ := ih hfront (reader.step state line)
    rw [List.cons_append, hmore, reader.read_cons_of_goes_on (hline _) (hbefore next), ← hmore]
    exact ⟨congrArg (· + 1) hlength, hclosed⟩

/-- A search passes all the lines that it has to skip. -/
theorem Scanner.blocksFrom_append_skipped (scanner : Scanner) (number : Nat)
    (skipped rest : List (List Char)) :
    scanner.blocksFrom number skipped.length (skipped ++ rest) =
      scanner.blocksFrom (number + skipped.length) 0 rest := by
  induction skipped generalizing number with
  | nil => rfl
  | cons line skipped ih =>
    rw [List.length_cons, List.cons_append, blocksFrom_skip, ih]
    congr 1
    omega

namespace VisualBasic

open Pattern

/-! ## Header lines and terminators -/

theorem eq_of_foldsTo_e {c : Char} (h : foldsTo 'E' c = true) : c = 'e' ∨ c = 'E' := by
  have hlower : c.toLower = 'e' := by simpa [foldsTo] using h
  exact Text.eq_or_eq_toUpper hlower

/-- A line with `End` and something behind it is no header line. -/
theorem procedurePattern_of_end {rest : Pattern} (hrest : rest.floats = true) {line : List Char}
    (h : (textStart ++ spaces ++ word "End" ++ gap ++ rest ++ edge).occursIn line = true) :
    procedurePattern.occursIn line = false := by
  have hkeyword : "End".toList = ['E', 'n', 'd'] := rfl
  have hanchored : (textStart ++ spaces ++ word "End" ++ gap ++ rest ++ edge).isAnchored = true :=
    Bool.and_eq_true_iff.mpr ⟨Bool.and_eq_true_iff.mpr ⟨by decide, hrest⟩, rfl⟩
  refine occursIn_eq_false_of_begins hanchored ?_ (by decide) (by decide) ?_ h
  · simp [canStay_word hkeyword]
  · intro c hsolid hc
    have hletter : foldsTo 'E' c = true := by
      simpa [spaces, begins, canStay, hsolid, begins_word hkeyword, canStay_word hkeyword] using hc
    rcases eq_of_foldsTo_e hletter with rfl | rfl <;> decide

/-- **A line that closes a procedure is no header line.** -/
theorem procedureHeader?_of_procedureEnd? {line : List Char} {kind : ProcedureKind}
    (h : procedureEnd? line = some kind) : procedureHeader? line = none := by
  have hend : procedureEndPattern.occursIn line = true := by
    obtain ⟨m, hm, -⟩ := Option.map_eq_some_iff.mp h
    rw [occursIn, hm, Option.isSome_some]
  have hnone := procedurePattern_of_end (by decide) hend
  rw [procedureHeader?, Option.map_eq_none_iff]
  exact Option.not_isSome_iff_eq_none.mp (by rw [← occursIn, hnone]; exact Bool.false_ne_true)

/-! ## Pieces -/

/-- Whether a line neither opens a procedure that has a body nor closes one. -/
structure IsNeutral (line : List Char) : Prop where
  opens : bodyHeader? line = none
  closes : procedureEnd? line = none

/-- A procedure from its header line to a terminator of its kind. -/
structure Procedure where
  /-- The kind of the procedure. -/
  kind : ProcedureKind
  /-- What the header line declares. -/
  header : Header
  /-- The header line. -/
  headerLine : List Char
  /-- The lines between header and terminator. -/
  inner : List (List Char)
  /-- The line that closes the procedure. -/
  terminator : List Char
  declares : procedureHeader? headerLine = some (kind, header)
  hasBody : header.bodiless = false
  neutral : ∀ line ∈ inner, IsNeutral line
  closes : procedureEnd? terminator = some kind

/-- The lines of a procedure without its terminator. -/
def Procedure.openLines (procedure : Procedure) : List (List Char) :=
  procedure.headerLine :: procedure.inner

/-- A piece of a well-formed text. -/
inductive Piece where
  /-- A line that opens and closes nothing. -/
  | line (text : List Char) (neutral : IsNeutral text)
  /-- A procedure. -/
  | procedure (proc : Procedure)

/-- The lines of a piece. -/
def Piece.lines : Piece → List (List Char)
  | line text _ => [text]
  | procedure proc => proc.openLines ++ [proc.terminator]

/-- The lines of pieces in a row. -/
def layout (pieces : List Piece) : List (List Char) :=
  pieces.flatMap Piece.lines

theorem layout_line (text : List Char) (neutral : IsNeutral text) (pieces : List Piece) :
    layout (.line text neutral :: pieces) = text :: layout pieces := rfl

theorem layout_procedure (proc : Procedure) (pieces : List Piece) :
    layout (.procedure proc :: pieces) = proc.openLines ++ proc.terminator :: layout pieces := by
  rw [layout, List.flatMap_cons, Piece.lines, List.append_assoc]
  rfl

theorem layout_append (pieces more : List Piece) :
    layout (pieces ++ more) = layout pieces ++ layout more :=
  List.flatMap_append

/-- Name, first line, last line and closedness of the blocks that pieces should have, if the
first of their lines has number `number`. -/
def spans (number : Nat) : List Piece → List (List Char × Nat × Nat × Bool)
  | [] => []
  | .line _ _ :: pieces => spans (number + 1) pieces
  | .procedure proc :: pieces =>
    (proc.header.name, number, number + proc.openLines.length, true) ::
      spans (number + proc.openLines.length + 1) pieces

namespace Procedure
variable (proc : Procedure)

theorem bodyHeader?_headerLine : bodyHeader? proc.headerLine = some proc.header := by
  simp [bodyHeader?, proc.declares, proc.hasBody]

theorem openLines_append (rest : List (List Char)) :
    proc.openLines ++ proc.terminator :: rest =
      proc.headerLine :: ((proc.inner ++ [proc.terminator]) ++ rest) := by
  rw [List.append_assoc]
  rfl

/-- No line of a procedure but its terminator closes one. -/
theorem procedureEnd?_of_mem_openLines {line : List Char} (h : line ∈ proc.openLines) :
    procedureEnd? line = none := by
  rcases List.mem_cons.mp h with rfl | h
  · cases hend : procedureEnd? proc.headerLine with
    | none => rfl
    | some kind =>
      have hheader := proc.declares
      rw [procedureHeader?_of_procedureEnd? hend] at hheader
      cases hheader
  · exact (proc.neutral line h).closes

/-- The body of a procedure goes on to its terminator. -/
theorem body_procedureScanner (rest : List (List Char)) :
    let body := procedureScanner.body (proc.openLines ++ proc.terminator :: rest)
    body.length = proc.openLines.length + 1 ∧ body.closed = true := by
  refine BodyReader.read_until (fun _ => rfl) ?_ ?_ rest _
  · intro line hline _
    simp [procedureReader, proc.procedureEnd?_of_mem_openLines hline]
  · intro _
    simp [procedureReader, proc.closes]

end Procedure

/-- **Every procedure of a well-formed text is a closed block**, from its header line to its
terminator, and there are no other blocks. -/
theorem procedureBlocks_layout (pieces : List Piece) :
    (procedureBlocks (layout pieces)).map
        (fun block => (block.name, block.start, block.stop, block.closed)) = spans 1 pieces := by
  suffices h : ∀ number, (procedureScanner.blocksFrom number 0 (layout pieces)).map
      (fun block => (block.name, block.start, block.stop, block.closed)) = spans number pieces
    from h 1
  induction pieces with
  | nil => exact fun _ => rfl
  | cons piece pieces ih =>
    intro number
    cases piece with
    | line text hneutral =>
      have hnone : procedureScanner.header? text = none := by
        simp [procedureScanner, hneutral.opens]
      rw [layout_line, Scanner.blocksFrom_of_none hnone]
      exact ih (number + 1)
    | procedure proc =>
      have hsome : procedureScanner.header? proc.headerLine = some proc.header.name := by
        simp [procedureScanner, proc.bodyHeader?_headerLine]
      obtain ⟨hlength, hclosed⟩ := proc.body_procedureScanner (layout pieces)
      rw [proc.openLines_append] at hlength hclosed
      -- behind the header line, the search skips the rest of the procedure
      have hskip : proc.openLines.length = (proc.inner ++ [proc.terminator]).length := by
        rw [List.length_append]
        rfl
      rw [layout_procedure, proc.openLines_append, Scanner.blocksFrom_of_some hsome, hlength,
        Nat.add_sub_cancel, hskip, Scanner.blocksFrom_append_skipped, List.map_cons, ih, spans,
        hskip]
      refine congrArg₂ List.cons ?_ (congrArg (spans · pieces) (by omega))
      simp only [Scanner.blockAt, hlength, hclosed, Prod.mk.injEq, true_and, and_true]
      omega

end VisualBasic
end Code
end LineLint
