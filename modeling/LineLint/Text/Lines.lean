/-! # Lines of a text

A line ends at `\r\n`, at a lone `\r` or at `\n`; what follows the last ending is
the last line, which may be empty.  Each row of the line table keeps the ending
beside its line, so the table loses nothing of the text.

Positions are counted in bytes of the UTF-8 form.
-/
namespace LineLint
namespace Text

/-- A line together with the characters that end it. -/
structure Row where
  /-- The line without its ending. -/
  line : List Char
  /-- The ending: `\r\n`, `\r`, `\n`, or nothing on the last row. -/
  ending : List Char
  deriving DecidableEq, Repr

/-- The line table of a text. -/
def rows : List Char → List Row
  | [] => [⟨[], []⟩]
  | '\r' :: '\n' :: rest => ⟨[], ['\r', '\n']⟩ :: rows rest
  | '\r' :: rest => ⟨[], ['\r']⟩ :: rows rest
  | '\n' :: rest => ⟨[], ['\n']⟩ :: rows rest
  | c :: rest =>
    match rows rest with
    | row :: more => { row with line := c :: row.line } :: more
    | [] => [⟨[c], []⟩]

/-- The lines of a text, without their endings. -/
def lines (text : List Char) : List (List Char) :=
  (rows text).map Row.line

/-- Length of a text in bytes. -/
def byteLength : List Char → Nat
  | [] => 0
  | c :: rest => c.utf8Size + byteLength rest

/-- Where each row of a table starts, if the first one starts at `start`. -/
def rowStarts (start : Nat) : List Row → List Nat
  | [] => []
  | row :: more =>
    start :: rowStarts (start + byteLength row.line + byteLength row.ending) more

/-- Where the lines of a text start, in bytes. -/
def lineStarts (text : List Char) : List Nat :=
  rowStarts 0 (rows text)

@[simp] theorem byteLength_nil : byteLength [] = 0 := rfl

@[simp] theorem byteLength_cons (c : Char) (text : List Char) :
    byteLength (c :: text) = c.utf8Size + byteLength text := rfl

@[simp] theorem byteLength_append (a b : List Char) :
    byteLength (a ++ b) = byteLength a + byteLength b := by
  induction a with
  | nil => simp
  | cons c a ih => simp [ih, Nat.add_assoc]

theorem rows_ne_nil (text : List Char) : rows text ≠ [] := by
  fun_cases rows text <;> simp_all

theorem lines_ne_nil (text : List Char) : lines text ≠ [] := by
  simp [lines, rows_ne_nil]

@[simp] theorem rows_nil : rows [] = [⟨[], []⟩] := rfl

@[simp] theorem rows_crlf (rest : List Char) :
    rows ('\r' :: '\n' :: rest) = ⟨[], ['\r', '\n']⟩ :: rows rest := rfl

@[simp] theorem rows_lf (rest : List Char) : rows ('\n' :: rest) = ⟨[], ['\n']⟩ :: rows rest := rfl

theorem rows_cr {rest : List Char} (h : rest.head? ≠ some '\n') :
    rows ('\r' :: rest) = ⟨[], ['\r']⟩ :: rows rest := by
  rw [rows]
  rintro more rfl
  exact h rfl

/-- A character that ends no line belongs to the line behind it. -/
theorem rows_cons_of_ne {c : Char} (hr : c ≠ '\r') (hn : c ≠ '\n') (rest : List Char) :
    ∃ row more, rows rest = row :: more ∧
      rows (c :: rest) = { row with line := c :: row.line } :: more := by
  cases h : rows rest with
  | nil => exact absurd h (rows_ne_nil rest)
  | cons row more =>
    refine ⟨row, more, rfl, ?_⟩
    rw [rows, h]
    · rintro _ rfl _
      exact hr rfl
    · exact hr
    · exact hn

/-- Lines and endings, read in order, are the text. -/
theorem flatten_rows (text : List Char) :
    ((rows text).map fun row => row.line ++ row.ending).flatten = text := by
  fun_induction rows text <;> simp_all

end Text
end LineLint
