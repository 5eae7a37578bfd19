import LineLint.Proofs.Report.Anchors
import LineLint.Proofs.Unbroken.Rules

/-! # The line table

What the line table of a text is, apart from the function that makes it.  A table
is `Tabulated` for a text if the text is its lines and endings in order, no line
ends inside a line, every line but the last has one of the three endings, and no
ending is cut in two.  The rows of a text are such a table
(`tabulated_rows`), and there is no other (`Tabulated.eq_rows`).

From the table two views are read off.  One forgets the endings: the lines are
what stands between the line feeds once every other ending has been replaced by
one (`lines_eq_splitOn`).  The other gives each row its place in bytes
(`Tabulated.exists_around`), and both together make `Snippet.line_table`.
-/
namespace LineLint
namespace Text

/-! ## Replacing endings -/

/-- Replaces `old` by `new` from left to right, once `skip` characters of an occurrence that
has been replaced have been passed. -/
def replaceFrom (old new : List Char) (skip : Nat) : List Char → List Char
  | [] => []
  | c :: rest =>
    match skip with
    | skip + 1 => replaceFrom old new skip rest
    | 0 =>
      if old.isPrefixOf (c :: rest) then new ++ replaceFrom old new (old.length - 1) rest
      else c :: replaceFrom old new 0 rest

/-- The text with every occurrence of `old`, which is not empty, replaced by `new`. -/
def replace (old new text : List Char) : List Char :=
  replaceFrom old new 0 text

theorem replace_cons_of_not_isPrefixOf {old : List Char} {c : Char} {rest : List Char}
    (h : old.isPrefixOf (c :: rest) = false) (new : List Char) :
    replace old new (c :: rest) = c :: replace old new rest := by
  simp [replace, replaceFrom, h]

theorem replace_single (c : Char) (new rest : List Char) :
    replace [c] new (c :: rest) = new ++ replace [c] new rest := by
  simp [replace, replaceFrom, List.isPrefixOf]

theorem replace_pair (c d : Char) (new rest : List Char) :
    replace [c, d] new (c :: d :: rest) = new ++ replace [c, d] new rest := by
  simp [replace, replaceFrom, List.isPrefixOf]

/-- Endings are unified by replacing the pairs first, and then what is left of the carriage
returns. -/
theorem unifyEndings_eq_replace (text : List Char) :
    unifyEndings text = replace ['\r'] ['\n'] (replace ['\r', '\n'] ['\n'] text) := by
  fun_induction unifyEndings text with
  | case1 => rfl
  | case2 rest ih =>
    have hlf : ['\r'].isPrefixOf ('\n' :: replace ['\r', '\n'] ['\n'] rest) = false := rfl
    rw [replace_pair, List.singleton_append, replace_cons_of_not_isPrefixOf hlf, ih]
  | case3 rest hlone ih =>
    have hpair : ['\r', '\n'].isPrefixOf ('\r' :: rest) = false := by
      cases rest with
      | nil => rfl
      | cons d rest =>
        have hd : d ≠ '\n' := fun hd => hlone rest (by rw [hd])
        simpa [List.isPrefixOf] using hd.symm
    rw [replace_cons_of_not_isPrefixOf hpair, replace_single, List.singleton_append, ih]
  | case4 c rest _ hr ih =>
    have hpair : ['\r', '\n'].isPrefixOf (c :: rest) = false := by
      simp [List.isPrefixOf, Ne.symm hr]
    have hlone : ['\r'].isPrefixOf (c :: replace ['\r', '\n'] ['\n'] rest) = false := by
      simp [List.isPrefixOf, Ne.symm hr]
    rw [replace_cons_of_not_isPrefixOf hpair, replace_cons_of_not_isPrefixOf hlone, ih]

theorem cr_not_mem_unifyEndings (text : List Char) : '\r' ∉ unifyEndings text := by
  fun_induction unifyEndings text with
  | case1 => simp
  | case2 rest ih => simp [ih]
  | case3 rest _ ih => simp [ih]
  | case4 c rest _ hr ih => simp [ih, Ne.symm hr]

/-- Where there are no carriage returns, the lines are what stands between the line feeds. -/
theorem lines_of_cr_not_mem {text : List Char} (h : '\r' ∉ text) :
    lines text = text.splitOn '\n' := by
  induction text with
  | nil => rfl
  | cons c rest ih =>
    rw [List.mem_cons, not_or] at h
    obtain ⟨hr, hrest⟩ := h
    by_cases hn : c = '\n'
    · subst hn
      rw [lines_lf, ih hrest, List.splitOn, List.splitOn, List.splitOnP_cons_eq_if_modifyHead,
        if_pos (beq_self_eq_true '\n')]
    · obtain ⟨line, more, hlines, hcons⟩ := lines_cons_of_ne (Ne.symm hr) hn rest
      rw [ih hrest, List.splitOn] at hlines
      rw [hcons, List.splitOn, List.splitOnP_cons_eq_if_modifyHead, if_neg (by simpa using hn),
        hlines, List.modifyHead_cons]

/-- **The lines of a text** are what stands between the line feeds, once every `\r\n` and then
every `\r` that is left has been replaced by one. -/
theorem lines_eq_splitOn (text : List Char) :
    lines text = (replace ['\r'] ['\n'] (replace ['\r', '\n'] ['\n'] text)).splitOn '\n' := by
  rw [← unifyEndings_eq_replace, ← lines_of_cr_not_mem (cr_not_mem_unifyEndings text),
    lines_unifyEndings]

/-! ## Tables -/

/-- The three ways in which a line can end. -/
def terminators : List (List Char) :=
  [['\r', '\n'], ['\r'], ['\n']]

/-- A table of the lines of a text with their endings.  A carriage return is not an ending if
a line feed follows it, for the two together are one. -/
inductive Tabulated : List Char → List Row → Prop where
  /-- The last line has no ending. -/
  | last {line : List Char} (hline : IsUnbroken line) : Tabulated line [⟨line, []⟩]
  /-- Every other line has one. -/
  | cons {line ending rest : List Char} {table : List Row} (hline : IsUnbroken line)
      (hending : ending ∈ terminators) (hwhole : ending = ['\r'] → rest.head? ≠ some '\n')
      (hrest : Tabulated rest table) :
      Tabulated (line ++ (ending ++ rest)) (⟨line, ending⟩ :: table)

theorem Tabulated.cons_char {c : Char} (hn : c ≠ '\n') (hr : c ≠ '\r') {text : List Char}
    {row : Row} {table : List Row} (h : Tabulated text (row :: table)) :
    Tabulated (c :: text) ({ row with line := c :: row.line } :: table) := by
  cases h with
  | last hline => exact .last (isUnbroken_cons_iff.mpr ⟨⟨hn, hr⟩, hline⟩)
  | cons hline hending hwhole hrest =>
    exact .cons (isUnbroken_cons_iff.mpr ⟨⟨hn, hr⟩, hline⟩) hending hwhole hrest

/-- **The rows of a text are a table of it.** -/
theorem tabulated_rows (text : List Char) : Tabulated text (rows text) := by
  fun_induction rows text with
  | case1 => exact .last isUnbroken_nil
  | case2 rest ih =>
    have hpair : ['\r', '\n'] ≠ ['\r'] := by decide
    exact @Tabulated.cons [] ['\r', '\n'] rest _ isUnbroken_nil (by decide) (absurd · hpair) ih
  | case3 rest hlone ih =>
    refine @Tabulated.cons [] ['\r'] rest _ isUnbroken_nil (by decide) ?_ ih
    intro _ hhead
    obtain ⟨more, hmore⟩ := List.head?_eq_some_iff.mp hhead
    exact hlone more hmore
  | case4 rest ih =>
    have hlf : ['\n'] ≠ ['\r'] := by decide
    exact @Tabulated.cons [] ['\n'] rest _ isUnbroken_nil (by decide) (absurd · hlf) ih
  | case5 c rest _ hr hn row more hrows ih =>
    rw [hrows] at ih
    exact ih.cons_char hn hr
  | case6 c rest _ _ _ hrows => exact absurd hrows (rows_ne_nil rest)

/-- An unbroken text in front belongs to the first row. -/
theorem rows_append_of_isUnbroken {line : List Char} (h : IsUnbroken line) {text : List Char}
    {row : Row} {table : List Row} (hrows : rows text = row :: table) :
    rows (line ++ text) = { row with line := line ++ row.line } :: table := by
  induction line with
  | nil => exact hrows
  | cons c line ih =>
    obtain ⟨⟨hn, hr⟩, hline⟩ := isUnbroken_cons_iff.mp h
    obtain ⟨first, more, hfirst, hcons⟩ := rows_cons_of_ne hr hn (line ++ text)
    rw [ih hline] at hfirst
    obtain ⟨rfl, rfl⟩ := List.cons_eq_cons.mp hfirst
    exact hcons

/-- **A text has no other table than its rows.** -/
theorem Tabulated.eq_rows {text : List Char} {table : List Row} (h : Tabulated text table) :
    table = rows text := by
  induction h with
  | @last line hline =>
    have hrows := rows_append_of_isUnbroken hline rows_nil
    rw [List.append_nil] at hrows
    exact hrows.symm
  | @cons line ending rest table hline hending hwhole hrest ih =>
    have hrows : rows (ending ++ rest) = ⟨[], ending⟩ :: rows rest := by
      simp only [terminators, List.mem_cons, List.not_mem_nil, or_false] at hending
      rcases hending with rfl | rfl | rfl
      · exact rows_crlf rest
      · exact rows_cr (hwhole rfl)
      · exact rows_lf rest
    rw [rows_append_of_isUnbroken hline hrows, ih, List.append_nil]

/-- **Around each row of a table** stand the text in front of it, which is as long as the row's
offset says, and the text behind it.  Behind the last row there is nothing; another row ends
with one whole terminator, and where that ends the next row starts. -/
theorem Tabulated.exists_around {text : List Char} {table : List Row} (h : Tabulated text table)
    {index : Nat} {row : Row} (hrow : table[index]? = some row) (start : Nat) :
    ∃ front back, text = front ++ (row.line ++ (row.ending ++ back)) ∧
      (rowStarts start table)[index]? = some (start + byteLength front) ∧
      (index + 1 = table.length → row.ending ++ back = []) ∧
      (index + 1 < table.length → row.ending ∈ terminators ∧
        (row.ending = ['\r'] → back.head? ≠ some '\n') ∧
        (rowStarts start table)[index + 1]? =
          some (start + byteLength front + byteLength row.line + byteLength row.ending)) := by
  induction h generalizing index start with
  | @last line hline =>
    cases index with
    | zero =>
      obtain rfl := Option.some.inj hrow
      exact ⟨[], [], by simp, rfl, fun _ => rfl, fun hlt => absurd hlt (by simp)⟩
    | succ index => simp at hrow
  | @cons line ending rest table hline hending hwhole hrest ih =>
    have hne : table ≠ [] := by
      rw [hrest.eq_rows]
      exact rows_ne_nil rest
    cases index with
    | zero =>
      obtain rfl := Option.some.inj hrow
      refine ⟨[], rest, rfl, rfl, ?_, ?_⟩
      · intro hlast
        rw [List.length_cons] at hlast
        exact absurd (List.eq_nil_of_length_eq_zero (by omega)) hne
      · intro _
        obtain ⟨next, more, rfl⟩ := List.exists_cons_of_ne_nil hne
        exact ⟨hending, hwhole, rfl⟩
    | succ index =>
      rw [List.getElem?_cons_succ] at hrow
      obtain ⟨front, back, htext, hstart, hlast, hnext⟩ :=
        ih hrow (start + byteLength line + byteLength ending)
      refine ⟨line ++ (ending ++ front), back, ?_, ?_, ?_, ?_⟩
      · rw [htext]
        simp only [List.append_assoc]
      · rw [rowStarts, List.getElem?_cons_succ, hstart]
        simp only [byteLength_append, Nat.add_assoc]
      · intro hlength
        rw [List.length_cons] at hlength
        exact hlast (by omega)
      · intro hlength
        rw [List.length_cons] at hlength
        obtain ⟨hending, hwhole, hnext⟩ := hnext (by omega)
        refine ⟨hending, hwhole, ?_⟩
        rw [rowStarts, List.getElem?_cons_succ, hnext]
        simp only [byteLength_append, Nat.add_assoc]

/-- A part that is read behind some text shows what comes next there. -/
theorem head?_of_slice? {front back part : List Char} {c : Char} {length : Nat}
    (h : slice? (front ++ back) (byteLength front) length = some (c :: part)) :
    back.head? = some c := by
  rw [slice?, dropBytes?_append, Option.bind_some] at h
  cases back with
  | nil =>
    rw [takeBytes?] at h
    split at h <;> cases h
  | cons d back =>
    rw [takeBytes?] at h
    split at h
    · cases h
    · split at h
      · obtain ⟨_, -, hpart⟩ := Option.map_eq_some_iff.mp h
        rw [(List.cons_eq_cons.mp hpart).1, List.head?_cons]
      · cases h

/-- The lines of a table, with a terminator between each two of them, are the text. -/
theorem Tabulated.exists_endings {text : List Char} {table : List Row}
    (h : Tabulated text table) :
    ∃ endings : List (List Char), endings.length + 1 = table.length ∧
      (∀ ending ∈ endings, ending ∈ terminators) ∧
      (List.zipWith (· ++ ·) (table.map Row.line) (endings ++ [[]])).flatten = text := by
  induction h with
  | @last line hline => exact ⟨[], rfl, by simp, by simp⟩
  | @cons line ending rest table hline hending hwhole hrest ih =>
    obtain ⟨endings, hlength, hall, htext⟩ := ih
    refine ⟨ending :: endings, ?_, List.forall_mem_cons.mpr ⟨hending, hall⟩, ?_⟩
    · rw [List.length_cons, List.length_cons, hlength]
    · rw [List.map_cons, List.cons_append, List.zipWith_cons_cons, List.flatten_cons, htext,
        List.append_assoc]

end Text

namespace Snippet

variable (snippet : Snippet)

/-- Where a line stands, what ends it, and where the next one starts. -/
theorem exists_around_of_line {index : Nat} {line : List Char}
    (h : snippet.lines[index]? = some line) :
    ∃ front ending back, snippet.text = front ++ (line ++ (ending ++ back)) ∧
      snippet.offsetOf (index + 1) = Text.byteLength front ∧
      (index + 1 = snippet.lines.length → ending ++ back = []) ∧
      (index + 1 < snippet.lines.length → ending ∈ Text.terminators ∧
        (ending = ['\r'] → back.head? ≠ some '\n') ∧
        snippet.offsetOf (index + 2) =
          Text.byteLength front + Text.byteLength line + Text.byteLength ending) := by
  rw [lines, Text.lines, List.getElem?_map] at h
  obtain ⟨row, hrow, rfl⟩ := Option.map_eq_some_iff.mp h
  obtain ⟨front, back, htext, hstart, hlast, hnext⟩ :=
    (Text.tabulated_rows snippet.text).exists_around hrow 0
  have hlength : snippet.lines.length = (Text.rows snippet.text).length := List.length_map _
  rw [Nat.zero_add] at hstart hnext
  refine ⟨front, row.ending, back, htext, ?_, ?_, ?_⟩
  · rw [offsetOf, Text.lineStarts, hstart, Option.getD_some]
  · rw [hlength]
    exact hlast
  · rw [hlength]
    intro hlt
    obtain ⟨hending, hwhole, hnext⟩ := hnext hlt
    refine ⟨hending, hwhole, ?_⟩
    rw [offsetOf, Text.lineStarts, hnext, Option.getD_some]

theorem offsetOf_lt_succ {index : Nat} (h : index + 1 < snippet.lines.length) :
    snippet.offsetOf (index + 1) < snippet.offsetOf (index + 2) := by
  obtain ⟨front, ending, back, -, hoffset, -, hnext⟩ :=
    snippet.exists_around_of_line (List.getElem?_eq_getElem (Nat.lt_of_succ_lt h))
  obtain ⟨hending, -, hnext⟩ := hnext h
  have hpos : 0 < Text.byteLength ending := by
    simp only [Text.terminators, List.mem_cons, List.not_mem_nil, or_false] at hending
    rcases hending with rfl | rfl | rfl <;> decide
  omega

/-- Offsets grow from line to line. -/
theorem offsetOf_lt_of_lt {first second : Nat} (hfirst : 1 ≤ first) (hlt : first < second)
    (hsecond : second ≤ snippet.lines.length) :
    snippet.offsetOf first < snippet.offsetOf second := by
  induction second, hlt using Nat.le_induction with
  | base =>
    obtain ⟨index, rfl⟩ := Nat.exists_eq_add_of_le' hfirst
    exact snippet.offsetOf_lt_succ hsecond
  | succ second hlt ih =>
    obtain ⟨index, rfl⟩ := Nat.exists_eq_add_of_le' (Nat.le_trans hfirst (Nat.le_of_lt hlt))
    exact Nat.lt_trans (ih (Nat.le_of_succ_le hsecond)) (snippet.offsetOf_lt_succ hsecond)

/-- **The line table of a text.**  The lines are what stands between the line feeds once every
`\r\n` and then every `\r` that is left has been replaced by one.  The first line starts at the
start of the text, and offsets grow from line to line.  The text holds each line at its offset,
and between its end and the offset of the next line one whole terminator; the last line ends
where the text does.  So the lines with terminators between them are the text. -/
theorem line_table (text : List Char) (dialect : Dialect) :
    let snippet : Snippet := ⟨text, dialect⟩
    let count := snippet.lines.length
    snippet.lines =
      (Text.replace ['\r'] ['\n'] (Text.replace ['\r', '\n'] ['\n'] text)).splitOn '\n' ∧
    snippet.offsetOf 1 = 0 ∧
    (∀ first second, 1 ≤ first → first < second → second ≤ count →
      snippet.offsetOf first < snippet.offsetOf second) ∧
    (∀ index line, snippet.lines[index]? = some line →
      Text.slice? text (snippet.offsetOf (index + 1)) (Text.byteLength line) = some line ∧
      let stop := snippet.offsetOf (index + 1) + Text.byteLength line
      (index + 1 < count → ∃ ending ∈ Text.terminators,
        Text.slice? text stop (Text.byteLength ending) = some ending ∧
        snippet.offsetOf (index + 2) = stop + Text.byteLength ending ∧
        (ending = ['\r'] → Text.slice? text (snippet.offsetOf (index + 2)) 1 ≠ some ['\n'])) ∧
      (index + 1 = count → stop = Text.byteLength text)) ∧
    ∃ endings : List (List Char), endings.length + 1 = count ∧
      (∀ ending ∈ endings, ending ∈ Text.terminators) ∧
      (List.zipWith (· ++ ·) snippet.lines (endings ++ [[]])).flatten = text := by
  intro snippet count
  refine ⟨Text.lines_eq_splitOn text, snippet.offsetOf_one,
    fun _ _ => snippet.offsetOf_lt_of_lt, ?_, ?_⟩
  · intro index line hline
    obtain ⟨front, ending, back, htext, hoffset, hlast, hnext⟩ :=
      snippet.exists_around_of_line hline
    -- what stands behind the line, and behind its ending, is read in the text cut there
    have hbehind : text = (front ++ line) ++ (ending ++ back) := by
      rw [List.append_assoc]
      exact htext
    have hstop : snippet.offsetOf (index + 1) + Text.byteLength line =
        Text.byteLength (front ++ line) := by
      rw [hoffset, Text.byteLength_append]
    refine ⟨?_, ?_, ?_⟩
    · rw [hoffset, show text = _ from htext]
      exact Text.slice?_append front line _
    · intro hlt
      obtain ⟨hending, hwhole, hnext⟩ := hnext hlt
      refine ⟨ending, hending, ?_, ?_, ?_⟩
      · rw [hstop, hbehind]
        exact Text.slice?_append (front ++ line) ending back
      · rw [hoffset, hnext]
      · intro hcr hslice
        have hfollows : snippet.offsetOf (index + 2) =
            Text.byteLength (front ++ line ++ ending) := by
          rw [hnext, Text.byteLength_append, Text.byteLength_append]
        rw [hfollows, hbehind, ← List.append_assoc] at hslice
        exact hwhole hcr (Text.head?_of_slice? hslice)
    · intro hcount
      rw [hstop, hbehind, hlast hcount, List.append_nil]
  · obtain ⟨endings, hlength, hall, hflatten⟩ := (Text.tabulated_rows text).exists_endings
    refine ⟨endings, ?_, hall, hflatten⟩
    rw [hlength]
    exact (List.length_map _).symm

end Snippet
end LineLint
