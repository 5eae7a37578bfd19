import LineLint.Proofs.Report.Kinds

/-! # Where issues are shown

The diagnostic of an issue marks a stretch of the text, by its place in bytes.
`Text.slice?` reads such a stretch and fails if one of its ends is inside a
character or beyond the text.  It reads back the middle of a text that is put
together from three parts (`Text.slice?_append`), and the line table puts the text
together around each of its lines (`Text.exists_around_row`).  So every diagnostic
marks a stretch that can be read, and that of an issue found by a review is the
line of the issue (`review_anchors`).
-/
namespace LineLint
namespace Text

/-! ## Stretches of bytes -/

/-- The text behind its first `count` bytes. -/
def dropBytes? (count : Nat) : List Char → Option (List Char)
  | [] => if count = 0 then some [] else none
  | c :: rest =>
    if count = 0 then some (c :: rest)
    else if c.utf8Size ≤ count then dropBytes? (count - c.utf8Size) rest
    else none

/-- The first `count` bytes of the text. -/
def takeBytes? (count : Nat) : List Char → Option (List Char)
  | [] => if count = 0 then some [] else none
  | c :: rest =>
    if count = 0 then some []
    else if c.utf8Size ≤ count then (takeBytes? (count - c.utf8Size) rest).map (c :: ·)
    else none

/-- The stretch of `length` bytes behind the first `offset` bytes of the text. -/
def slice? (text : List Char) (offset length : Nat) : Option (List Char) :=
  (dropBytes? offset text).bind (takeBytes? length)

theorem dropBytes?_zero (text : List Char) : dropBytes? 0 text = some text := by
  cases text <;> rfl

theorem takeBytes?_zero (text : List Char) : takeBytes? 0 text = some [] := by
  cases text <;> rfl

theorem byteLength_cons_sub (c : Char) (text : List Char) :
    byteLength (c :: text) ≠ 0 ∧ c.utf8Size ≤ byteLength (c :: text) ∧
      byteLength (c :: text) - c.utf8Size = byteLength text := by
  have hpos := c.utf8Size_pos
  rw [byteLength_cons]
  omega

theorem dropBytes?_append (front rest : List Char) :
    dropBytes? (byteLength front) (front ++ rest) = some rest := by
  induction front with
  | nil => exact dropBytes?_zero rest
  | cons c front ih =>
    obtain ⟨hne, hle, hsub⟩ := byteLength_cons_sub c front
    rw [List.cons_append, dropBytes?, if_neg hne, if_pos hle, hsub, ih]

theorem takeBytes?_append (part rest : List Char) :
    takeBytes? (byteLength part) (part ++ rest) = some part := by
  induction part with
  | nil => exact takeBytes?_zero rest
  | cons c part ih =>
    obtain ⟨hne, hle, hsub⟩ := byteLength_cons_sub c part
    rw [List.cons_append, takeBytes?, if_neg hne, if_pos hle, hsub, ih, Option.map_some]

/-- A part is read where it lies between what stands in front of it and behind. -/
theorem slice?_append (front part back : List Char) :
    slice? (front ++ (part ++ back)) (byteLength front) (byteLength part) = some part := by
  rw [slice?, dropBytes?_append, Option.bind_some, takeBytes?_append]

/-! ## Rows in their text -/

@[simp] theorem length_rowStarts (start : Nat) (table : List Row) :
    (rowStarts start table).length = table.length := by
  induction table generalizing start with
  | nil => rfl
  | cons row table ih => rw [rowStarts, List.length_cons, ih, List.length_cons]

/-- Around the line of a row stand the rows in front of it and the rest of the table, and the
row starts where those in front of it end. -/
theorem exists_around_row {table : List Row} {index : Nat} {row : Row}
    (h : table[index]? = some row) (start : Nat) :
    ∃ front back, (table.map fun row => row.line ++ row.ending).flatten =
        front ++ (row.line ++ back) ∧
      (rowStarts start table)[index]? = some (start + byteLength front) := by
  induction table generalizing index start with
  | nil => cases h
  | cons first table ih =>
    cases index with
    | zero =>
      obtain rfl : first = row := Option.some.inj h
      refine ⟨[], first.ending ++ (table.map fun row => row.line ++ row.ending).flatten, ?_, rfl⟩
      rw [List.map_cons, List.flatten_cons, List.append_assoc, List.nil_append]
    | succ index =>
      obtain ⟨front, back, htable, hstart⟩ :=
        ih h (start + byteLength first.line + byteLength first.ending)
      refine ⟨first.line ++ first.ending ++ front, back, ?_, ?_⟩
      · rw [List.map_cons, List.flatten_cons, htable, ← List.append_assoc]
      · rw [rowStarts, List.getElem?_cons_succ, hstart, byteLength_append, byteLength_append]
        simp only [Nat.add_assoc]

end Text

namespace Snippet

variable (snippet : Snippet)

/-- A line stands in the text at its offset. -/
theorem exists_around_line {index : Nat} {line : List Char}
    (h : snippet.lines[index]? = some line) :
    ∃ front back, snippet.text = front ++ (line ++ back) ∧
      snippet.offsetOf (index + 1) = Text.byteLength front := by
  rw [lines, Text.lines, List.getElem?_map] at h
  obtain ⟨row, hrow, rfl⟩ := Option.map_eq_some_iff.mp h
  obtain ⟨front, back, htext, hstart⟩ := Text.exists_around_row hrow 0
  rw [Text.flatten_rows] at htext
  refine ⟨front, back, htext, ?_⟩
  rw [offsetOf, Text.lineStarts, hstart, Option.getD_some, Nat.zero_add]

theorem offsetOf_one : snippet.offsetOf 1 = 0 := by
  obtain ⟨row, more, hrows⟩ := List.exists_cons_of_ne_nil (Text.rows_ne_nil snippet.text)
  rw [offsetOf, Text.lineStarts, hrows]
  rfl

/-- A line that is not there is taken to start at the end of the text. -/
theorem offsetOf_of_none {index : Nat} (h : snippet.lines[index]? = none) :
    snippet.offsetOf (index + 1) = Text.byteLength snippet.text := by
  have hlength : (Text.lineStarts snippet.text).length = snippet.lines.length := by
    rw [Text.lineStarts, Text.length_rowStarts, lines, Text.lines, List.length_map]
  have hnone : (Text.lineStarts snippet.text)[index]? = none := by
    rw [List.getElem?_eq_none_iff, hlength]
    exact List.getElem?_eq_none_iff.mp h
  rw [offsetOf, hnone, Option.getD_none]

/-- What the diagnostic of an issue marks: its line, or nothing if there is no such line. -/
def marked (issue : Issue) : List Char :=
  match issue.line with
  | some number => snippet.lines[number - 1]?.getD []
  | none => []

theorem length_diagnostic (issue : Issue) :
    (snippet.diagnostic issue).length = Text.byteLength (snippet.marked issue) := by
  rw [diagnostic, marked]
  cases issue.line with
  | none => rfl
  | some number =>
    simp only
    cases snippet.lines[number - 1]? <;> rfl

/-- **Every diagnostic marks a part of the text.** -/
theorem exists_around_marked (issue : Issue) :
    ∃ front back, snippet.text = front ++ (snippet.marked issue ++ back) ∧
      (snippet.diagnostic issue).offset = Text.byteLength front := by
  rw [marked, diagnostic]
  cases issue.line with
  | none => exact ⟨[], snippet.text, rfl, rfl⟩
  | some number =>
    -- there is no line zero, and the first line is marked for it
    have hoffset : snippet.offsetOf number = snippet.offsetOf (number - 1 + 1) := by
      cases number with
      | zero => exact snippet.offsetOf_one.symm
      | succ index => rfl
    simp only [hoffset]
    cases hget : snippet.lines[number - 1]? with
    | none => exact ⟨snippet.text, [], (List.append_nil _).symm, snippet.offsetOf_of_none hget⟩
    | some line => exact snippet.exists_around_line hget

/-- What a diagnostic marks can be read, and lies within the text. -/
theorem slice?_diagnostic (issue : Issue) :
    Text.slice? snippet.text (snippet.diagnostic issue).offset (snippet.diagnostic issue).length =
        some (snippet.marked issue) ∧
      (snippet.diagnostic issue).offset + (snippet.diagnostic issue).length ≤
        Text.byteLength snippet.text := by
  obtain ⟨front, back, htext, hoffset⟩ := snippet.exists_around_marked issue
  rw [hoffset, snippet.length_diagnostic]
  refine ⟨?_, ?_⟩
  · rw [htext]
    exact Text.slice?_append front _ back
  · have hlength := congrArg Text.byteLength htext
    rw [Text.byteLength_append, Text.byteLength_append] at hlength
    omega

theorem marked_of_hasLine {issue : Issue} {number : Nat} (hline : issue.line = some number)
    (hnumber : snippet.HasLine number) :
    snippet.lines[number - 1]? = some (snippet.marked issue) := by
  obtain ⟨hge, hle⟩ := hnumber
  have hlt : number - 1 < snippet.lines.length := by omega
  rw [marked, hline]
  simp only [List.getElem?_eq_getElem hlt, Option.getD_some]

end Snippet

/-- **Issues are shown where they are.**  The line number of an issue found by a review is that
of a line of the text, and its diagnostic cuts out exactly this line.  The diagnostic of any
issue, whatever its line number, lies within the text and cuts through no character. -/
theorem review_anchors (text : List Char) (dialect : Dialect) :
    let snippet : Snippet := ⟨text, dialect⟩
    (∀ issue ∈ (review text dialect).issues, ∀ number, issue.line = some number →
      1 ≤ number ∧ number ≤ snippet.lines.length ∧
      ∃ line, snippet.lines[number - 1]? = some line ∧
        Text.slice? text (snippet.diagnostic issue).offset (snippet.diagnostic issue).length =
          some line) ∧
    ∀ issue : Issue,
      (snippet.diagnostic issue).offset + (snippet.diagnostic issue).length ≤
        Text.byteLength text ∧
      ∃ part,
        Text.slice? text (snippet.diagnostic issue).offset (snippet.diagnostic issue).length =
          some part := by
  intro snippet
  refine ⟨?_, ?_⟩
  · intro issue hissue number hline
    obtain ⟨kind, hfits⟩ := exists_fits_of_mem_review hissue
    have hnumber : snippet.HasLine number := hfits.line number hline
    exact ⟨hnumber.1, hnumber.2, snippet.marked issue, snippet.marked_of_hasLine hline hnumber,
      (snippet.slice?_diagnostic issue).1⟩
  · intro issue
    obtain ⟨hslice, hle⟩ := snippet.slice?_diagnostic issue
    exact ⟨hle, snippet.marked issue, hslice⟩

/-- A mark between two kinds of line endings, behind a letter of two bytes. -/
theorem review_anchors_between_endings :
    let text := "é\r\nF(); // TODO\rß".toList
    let issue : Issue :=
      ⟨"CSharp.TODO", some 2, "TODO comment found.",
        "Resolve or track the TODO with an issue.", .info⟩
    let diagnostic := (Snippet.mk text .csharp).diagnostic issue
    issue ∈ (review text .csharp).issues ∧ diagnostic.offset = 4 ∧ diagnostic.length = 12 ∧
      Text.slice? text 4 12 = some "F(); // TODO".toList := by
  intro text issue diagnostic
  have hissue : issue ∈ (review text .csharp).issues := by decide +kernel
  have hoffset : diagnostic.offset = 4 := by decide +kernel
  have hlength : diagnostic.length = 12 := by decide +kernel
  obtain ⟨-, -, line, hline, hslice⟩ := (review_anchors text .csharp).1 issue hissue 2 rfl
  have hsecond : (Snippet.mk text .csharp).lines[2 - 1]? = some "F(); // TODO".toList := by
    decide +kernel
  have heq : line = "F(); // TODO".toList := Option.some.inj (hline.symm.trans hsecond)
  refine ⟨hissue, hoffset, hlength, ?_⟩
  rw [← heq, ← hslice]
  exact congrArg₂ (Text.slice? text) hoffset.symm hlength.symm

end LineLint
