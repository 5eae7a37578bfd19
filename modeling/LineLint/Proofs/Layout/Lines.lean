import LineLint.Proofs.Layout.Spaces
import LineLint.Rule.LoanTerms
import LineLint.Text.Lines

/-! # Texts read line by line

A function of texts that is put together, at every line ending, from what it
makes of the line in front and of the text behind is `LineWise`.  Such a function
is a fold over the lines (`LineWise.eq_foldLines`), so it sees neither how the
lines end nor, if its parts are indent-blind, how far they are indented: texts
that are `Alike` give the same result (`LineWise.congr`).

Blanks, the search for a text without line endings in either case mapping, and
the mention of loan terms are line-wise.
-/
namespace LineLint
namespace Text

/-- Whether a character ends lines. -/
def endsLine (c : Char) : Bool :=
  c == '\r' || c == '\n'

theorem isSpace_of_endsLine {c : Char} (h : endsLine c = true) : isSpace c = true := by
  rcases Bool.or_eq_true_iff.mp h with h | h
  · rw [beq_iff_eq.mp h]
    decide
  · rw [beq_iff_eq.mp h]
    decide

/-- Whether two texts have the same lines up to the white space that the lines start with. -/
def Alike (a b : List Char) : Prop :=
  (lines a).map trimStart = (lines b).map trimStart

theorem lines_crlf (rest : List Char) : lines ('\r' :: '\n' :: rest) = [] :: lines rest := rfl

theorem lines_lf (rest : List Char) : lines ('\n' :: rest) = [] :: lines rest := rfl

theorem lines_cr {rest : List Char} (h : ∀ more, rest ≠ '\n' :: more) :
    lines ('\r' :: rest) = [] :: lines rest := by
  rw [lines, rows, List.map_cons, lines]
  exact h

theorem lines_cons_of_ne {c : Char} (hr : c ≠ '\r') (hn : c ≠ '\n') (rest : List Char) :
    ∃ line more, lines rest = line :: more ∧ lines (c :: rest) = (c :: line) :: more := by
  obtain ⟨row, more, hrows, hcons⟩ := rows_cons_of_ne hr hn rest
  refine ⟨row.line, more.map Row.line, ?_, ?_⟩
  · rw [lines, hrows]
    rfl
  · rw [lines, hcons]
    rfl

/-! ## Changes of layout -/

/-- The text with every line ending written as `\n`. -/
def unifyEndings : List Char → List Char
  | [] => []
  | '\r' :: '\n' :: rest => '\n' :: unifyEndings rest
  | '\r' :: rest => '\n' :: unifyEndings rest
  | c :: rest => c :: unifyEndings rest

/-- The lines do not depend on how they end. -/
theorem lines_unifyEndings (text : List Char) : lines (unifyEndings text) = lines text := by
  fun_induction unifyEndings text with
  | case1 => rfl
  | case2 rest ih => rw [lines_lf, ih, lines_crlf]
  | case3 rest hlone ih =>
    rw [lines_lf, ih, lines_cr hlone]
  | case4 c rest _ hr ih =>
    by_cases hn : c = '\n'
    · rw [hn, lines_lf, ih, lines_lf]
    · obtain ⟨line, more, hlines, hcons⟩ := lines_cons_of_ne hr hn (unifyEndings rest)
      obtain ⟨line', more', hlines', hcons'⟩ := lines_cons_of_ne hr hn rest
      rw [ih, hlines'] at hlines
      obtain ⟨rfl, rfl⟩ := List.cons_eq_cons.mp hlines
      rw [hcons, hcons']

/-- The line without the spaces and tabs that it starts with. -/
def dedent (line : List Char) : List Char :=
  line.dropWhile fun c => c == ' ' || c == '\t'

/-- The row with its line dedented. -/
def Row.dedent (row : Row) : Row :=
  { row with line := Text.dedent row.line }

theorem trimStart_dedent (line : List Char) : trimStart (dedent line) = trimStart line := by
  induction line with
  | nil => rfl
  | cons c line ih =>
    rw [dedent, List.dropWhile_cons]
    split
    · rename_i hc
      have hspace : isSpace c = true := by
        rcases Bool.or_eq_true_iff.mp hc with h | h
        · rw [beq_iff_eq.mp h]
          decide
        · rw [beq_iff_eq.mp h]
          decide
      rw [indentBlind_trimStart c line hspace]
      exact ih
    · rfl

/-- Texts with the same rows up to spaces and tabs in front are alike. -/
theorem alike_of_map_dedent {a b : List Char}
    (h : (rows a).map Row.dedent = (rows b).map Row.dedent) : Alike a b := by
  have htrim : ∀ text : List Char, (lines text).map trimStart =
      ((rows text).map Row.dedent).map fun row => trimStart row.line := by
    intro text
    rw [lines, List.map_map, List.map_map]
    exact List.map_congr_left fun row _ => (trimStart_dedent row.line).symm
  rw [Alike, htrim a, h, ← htrim b]

/-! ## Line-wise functions -/

/-- A function on a list of lines: `join` puts together what `front` makes of a line and what is
made of the lines behind it; the last line is left to `f`. -/
def foldLines {α : Type} (f front : List Char → α) (join : α → α → α) :
    List (List Char) → α
  | [] => f []
  | [line] => f line
  | line :: next :: more => join (front line) (foldLines f front join (next :: more))

/-- A function of texts that is put together at line endings, from parts that do not see
indentation. -/
structure LineWise {α : Type} (f front : List Char → α) (join : α → α → α) : Prop where
  /-- What the function makes of a text with a line ending. -/
  split : ∀ a c b, endsLine c = true → f (a ++ c :: b) = join (front a) (f b)
  /-- An empty line, such as the one between the two characters of `\r\n`, adds nothing. -/
  empty : ∀ a, join (front []) a = a
  blind : IndentBlind f
  front_blind : IndentBlind front

namespace LineWise
variable {α : Type} {f front : List Char → α} {join : α → α → α}

theorem eq_foldLines_break (h : LineWise f front join) {c : Char} (hc : endsLine c = true)
    {rest : List Char} (hrest : f rest = foldLines f front join (lines rest))
    (before : List Char) :
    f (before ++ c :: rest) = foldLines f front join (before :: lines rest) := by
  obtain ⟨next, others, hlines⟩ := List.exists_cons_of_ne_nil (lines_ne_nil rest)
  rw [h.split before c rest hc, hrest, hlines]
  rfl

/-- The function of a text behind characters that belong to its first line. -/
theorem eq_foldLines_behind (h : LineWise f front join) {text line : List Char}
    {more : List (List Char)} (hlines : lines text = line :: more) (before : List Char) :
    f (before ++ text) = foldLines f front join ((before ++ line) :: more) := by
  fun_induction rows text generalizing before line more with
  | case1 =>
    obtain ⟨rfl, rfl⟩ := List.cons_eq_cons.mp (show [[]] = line :: more from hlines)
    rfl
  | case2 rest ih =>
    obtain ⟨next, others, hrest⟩ := List.exists_cons_of_ne_nil (lines_ne_nil rest)
    obtain ⟨rfl, rfl⟩ := List.cons_eq_cons.mp ((lines_crlf rest).symm.trans hlines)
    -- the line feed alone ends the line as the pair does
    have hlone : f ('\n' :: rest) = f rest := (h.split [] '\n' rest rfl).trans (h.empty _)
    rw [h.split before '\r' ('\n' :: rest) rfl, hlone, ← h.split before '\n' rest rfl,
      List.append_nil]
    exact h.eq_foldLines_break rfl (by rw [hrest]; exact ih hrest []) before
  | case3 rest hlone ih =>
    obtain ⟨next, others, hrest⟩ := List.exists_cons_of_ne_nil (lines_ne_nil rest)
    obtain ⟨rfl, rfl⟩ := List.cons_eq_cons.mp ((lines_cr hlone).symm.trans hlines)
    rw [List.append_nil]
    exact h.eq_foldLines_break rfl (by rw [hrest]; exact ih hrest []) before
  | case4 rest ih =>
    obtain ⟨next, others, hrest⟩ := List.exists_cons_of_ne_nil (lines_ne_nil rest)
    obtain ⟨rfl, rfl⟩ := List.cons_eq_cons.mp ((lines_lf rest).symm.trans hlines)
    rw [List.append_nil]
    exact h.eq_foldLines_break rfl (by rw [hrest]; exact ih hrest []) before
  | case5 c rest _ hr hn row others hrows ih =>
    obtain ⟨next, further, hrest, hcons⟩ := lines_cons_of_ne hr hn rest
    obtain ⟨rfl, rfl⟩ := List.cons_eq_cons.mp (hcons.symm.trans hlines)
    -- the character moves over to the part of its line in front
    rw [List.append_cons, ih hrest, ← List.append_cons]
  | case6 c rest _ _ _ hrows => exact absurd hrows (rows_ne_nil rest)

/-- **A line-wise function is a fold over the lines.** -/
theorem eq_foldLines (h : LineWise f front join) (text : List Char) :
    f text = foldLines f front join (lines text) := by
  obtain ⟨line, more, hlines⟩ := List.exists_cons_of_ne_nil (lines_ne_nil text)
  rw [hlines]
  exact h.eq_foldLines_behind hlines []

theorem foldLines_trimStart (h : LineWise f front join) (lines : List (List Char)) :
    foldLines f front join (lines.map trimStart) = foldLines f front join lines := by
  induction lines with
  | nil => rfl
  | cons line more ih =>
    cases more with
    | nil => exact h.blind.trimStart line
    | cons next more =>
      rw [List.map_cons, List.map_cons, foldLines, h.front_blind.trimStart, ← List.map_cons, ih,
        foldLines]

/-- **A line-wise function sees neither line endings nor indentation.** -/
theorem congr (h : LineWise f front join) {a b : List Char} (hab : Alike a b) : f a = f b := by
  rw [h.eq_foldLines, ← h.foldLines_trimStart, hab, h.foldLines_trimStart, ← h.eq_foldLines]

end LineWise

/-! ## Blanks and searches -/

theorem lineWise_isBlank : LineWise isBlank isBlank (· && ·) where
  split a c b hc := by
    simp only [isBlank, List.all_append, List.all_cons, isSpace_of_endsLine hc, Bool.true_and]
  empty _ := Bool.true_and _
  blind := indentBlind_isBlank
  front_blind := indentBlind_isBlank

/-- Whether a text can be found within a line only, and not in white space in front of it. -/
def isInline (needle : List Char) : Bool :=
  startsSolid needle && needle.all fun c => !endsLine c

theorem isPrefixOf_append_cons {needle : List Char} {c : Char} (hc : c ∉ needle)
    (a b : List Char) : needle.isPrefixOf (a ++ c :: b) = needle.isPrefixOf a := by
  induction needle generalizing a with
  | nil => simp
  | cons d needle ih =>
    rw [List.mem_cons, not_or] at hc
    cases a with
    | nil =>
      rw [List.nil_append, List.isPrefixOf_cons_cons, beq_eq_false_iff_ne.mpr (Ne.symm hc.1)]
      rfl
    | cons e a =>
      rw [List.cons_append, List.isPrefixOf_cons_cons, ih hc.2, List.isPrefixOf_cons_cons]

/-- A text does not reach across a character that it does not hold. -/
theorem contains_append_cons {needle : List Char} (hne : needle ≠ []) {c : Char}
    (hc : c ∉ needle) (a b : List Char) :
    contains (a ++ c :: b) needle = (contains a needle || contains b needle) := by
  induction a with
  | nil =>
    have hfront := isPrefixOf_append_cons hc [] b
    rw [List.nil_append] at hfront
    simp only [List.nil_append, contains, hfront]
    cases needle with
    | nil => exact absurd rfl hne
    | cons d needle => rfl
  | cons d a ih =>
    have hfront := isPrefixOf_append_cons hc (d :: a) b
    rw [List.cons_append] at hfront
    rw [List.cons_append, contains, hfront, ih, contains, Bool.or_assoc]

theorem not_mem_of_isInline {needle : List Char} (hn : isInline needle = true) {c : Char}
    (hc : endsLine c = true) : c ∉ needle := by
  intro hmem
  have hall := List.all_eq_true.mp (Bool.and_eq_true_iff.mp hn).2 c hmem
  rw [hc] at hall
  cases hall

theorem ne_nil_of_isInline {needle : List Char} (hn : isInline needle = true) : needle ≠ [] := by
  rintro rfl
  cases hn

/-- The search in a text that has been mapped part by part. -/
theorem lineWise_contains {map : List Char → List Char} (hnil : map [] = [])
    (hmap : ∀ {c : Char}, isSpace c = true → ∀ a b, map (a ++ c :: b) = map a ++ c :: map b)
    {needle : List Char} (hn : isInline needle = true) :
    LineWise (fun text => contains (map text) needle) (fun text => contains (map text) needle)
      (· || ·) := by
  have hblind : IndentBlind fun text => contains (map text) needle :=
    indentBlind_contains hnil hmap (Bool.and_eq_true_iff.mp hn).1
  refine ⟨?_, ?_, hblind, hblind⟩
  · intro a c b hc
    rw [hmap (isSpace_of_endsLine hc)]
    exact contains_append_cons (ne_nil_of_isInline hn) (not_mem_of_isInline hn hc) _ _
  · intro a
    have hempty : contains [] needle = false := by
      cases needle with
      | nil => exact absurd rfl (ne_nil_of_isInline hn)
      | cons d needle => rfl
    rw [hnil, hempty, Bool.false_or]

theorem lineWise_contains_lower {needle : List Char} (hn : isInline needle = true) :
    LineWise (fun text => contains (lower text) needle)
      (fun text => contains (lower text) needle) (· || ·) :=
  lineWise_contains lower_nil lower_break hn

theorem lineWise_contains_upper {needle : List Char} (hn : isInline needle = true) :
    LineWise (fun text => contains (upper text) needle)
      (fun text => contains (upper text) needle) (· || ·) :=
  lineWise_contains upper_nil upper_break hn

end Text

/-! ## Loan terms -/

namespace LoanTerms

/-- A run of letters ends in front of any other character. -/
theorem letterRunsFrom_append_cons {c : Char} (hc : c.isAlpha = false) (run a b : List Char) :
    letterRunsFrom run (a ++ c :: b) = letterRunsFrom run a ++ letterRuns b := by
  induction a generalizing run with
  | nil =>
    simp only [List.nil_append, letterRunsFrom, hc, letterRuns]
    cases run.isEmpty <;> rfl
  | cons d a ih =>
    rw [List.cons_append, letterRunsFrom, letterRunsFrom, ih, ih]
    cases d.isAlpha with
    | true => rfl
    | false => cases run.isEmpty <;> rfl

theorem mentionedIn_append_cons {c : Char} (hc : c.isAlpha = false) (a b : List Char) :
    mentionedIn (a ++ c :: b) = (mentionedIn a || mentionedIn b) := by
  rw [mentionedIn, letterRuns, letterRunsFrom_append_cons hc, List.any_append]
  rfl

theorem lineWise_mentionedIn : Text.LineWise mentionedIn mentionedIn (· || ·) := by
  have hblind : Text.IndentBlind mentionedIn := fun c line hc =>
    mentionedIn_append_cons (Text.plain_of_isSpace hc).alpha [] line
  refine ⟨?_, fun a => Bool.false_or a, hblind, hblind⟩
  intro a c b hc
  exact mentionedIn_append_cons (Text.plain_of_isSpace (Text.isSpace_of_endsLine hc)).alpha a b

end LoanTerms
end LineLint
