import LineLint.Proofs.Block.Kind

/-! # Where blocks lie

The blocks that a lawful scanner finds lie inside the text, in order and apart
from each other; each starts at a header line of its name, and no header line
lies outside of all of them.  A block that does not close is the last one and
goes on to the last line.

The search is followed line by line.  `Scanner.Arranged` says all this of the
lines from a number on, of which the first `skip` belong to a block already
found; a line that is passed keeps it (`Arranged.pass`), and so does a block that
is put in front (`Arranged.cons`).
-/
namespace LineLint
namespace Code

/-- Blocks found in `lines`, the first of which has number `number`, when the search starts
`skip` lines further on. -/
structure Scanner.Arranged (scanner : Scanner) (number skip : Nat) (lines : List (List Char))
    (blocks : List Block) : Prop where
  /-- No block starts on a line that is skipped. -/
  start_ge : ∀ block ∈ blocks, number + skip ≤ block.start
  start_le : ∀ block ∈ blocks, block.start ≤ block.stop
  stop_lt : ∀ block ∈ blocks, block.stop < number + lines.length
  apart : blocks.Pairwise fun block later => block.stop < later.start
  header : ∀ block ∈ blocks, ∃ line, lines[block.start - number]? = some line ∧
    scanner.header? line = some block.name
  covered : ∀ index line name, lines[index]? = some line → scanner.header? line = some name →
    skip ≤ index → ∃ block ∈ blocks, block.start ≤ number + index ∧ number + index ≤ block.stop
  last_of_open : ∀ block ∈ blocks, block.closed = false →
    blocks.getLast? = some block ∧ block.stop + 1 = number + lines.length

namespace Scanner
variable {scanner : Scanner} {number skip : Nat} {line : List Char} {rest : List (List Char)}
  {blocks : List Block}

theorem Arranged.nil : scanner.Arranged number skip [] [] where
  start_ge := by simp
  start_le := by simp
  stop_lt := by simp
  apart := List.Pairwise.nil
  header := by simp
  covered := by simp
  last_of_open := by simp

/-- A line in front changes nothing if it is skipped or holds no header. -/
theorem Arranged.pass (h : scanner.Arranged (number + 1) (skip - 1) rest blocks)
    (hline : skip = 0 → scanner.header? line = none) :
    scanner.Arranged number skip (line :: rest) blocks where
  start_ge block hb := by
    have := h.start_ge block hb
    omega
  start_le := h.start_le
  stop_lt block hb := by
    have := h.stop_lt block hb
    rw [List.length_cons]
    omega
  apart := h.apart
  header block hb := by
    obtain ⟨header, hget, hname⟩ := h.header block hb
    have hge := h.start_ge block hb
    refine ⟨header, ?_, hname⟩
    rw [show block.start - number = (block.start - (number + 1)) + 1 from by omega,
      List.getElem?_cons_succ]
    exact hget
  covered index header name hget hname hskip := by
    cases index with
    | zero =>
      obtain rfl : line = header := by simpa using hget
      rw [hline (Nat.le_zero.mp hskip)] at hname
      cases hname
    | succ index =>
      rw [List.getElem?_cons_succ] at hget
      obtain ⟨block, hb, hlow, hhigh⟩ := h.covered index header name hget hname (by omega)
      exact ⟨block, hb, by omega, by omega⟩
  last_of_open block hb hopen := by
    obtain ⟨hlast, hstop⟩ := h.last_of_open block hb hopen
    refine ⟨hlast, ?_⟩
    rw [List.length_cons]
    omega

/-- A block can be put in front of the blocks found behind its body. -/
theorem Arranged.cons {block : Block} {length : Nat} (hpos : 0 < length)
    (hlength : length ≤ rest.length + 1) (hstart : block.start = number)
    (hstop : block.stop = number + length - 1)
    (hname : scanner.header? line = some block.name)
    (hopen : block.closed = false → length = rest.length + 1)
    (h : scanner.Arranged (number + 1) (length - 1) rest blocks) :
    scanner.Arranged number 0 (line :: rest) (block :: blocks) := by
  have hmore : scanner.Arranged number length (line :: rest) blocks :=
    h.pass fun hzero => absurd hzero (Nat.ne_of_gt hpos)
  refine ⟨?_, ?_, ?_, ?_, ?_, ?_, ?_⟩
  · intro other ho
    rcases List.mem_cons.mp ho with rfl | ho
    · exact Nat.le_of_eq hstart.symm
    · exact Nat.le_trans (Nat.le_add_right _ _) (hmore.start_ge other ho)
  · intro other ho
    rcases List.mem_cons.mp ho with rfl | ho
    · omega
    · exact hmore.start_le other ho
  · intro other ho
    rcases List.mem_cons.mp ho with rfl | ho
    · rw [List.length_cons]
      omega
    · exact hmore.stop_lt other ho
  · refine List.pairwise_cons.mpr ⟨?_, hmore.apart⟩
    intro other ho
    have := hmore.start_ge other ho
    omega
  · intro other ho
    rcases List.mem_cons.mp ho with rfl | ho
    · exact ⟨line, by simp [hstart], hname⟩
    · exact hmore.header other ho
  · intro index header name hget hheader _
    by_cases hin : index < length
    · exact ⟨block, List.mem_cons_self, by omega, by omega⟩
    · obtain ⟨other, ho, hbounds⟩ :=
        hmore.covered index header name hget hheader (Nat.le_of_not_lt hin)
      exact ⟨other, List.mem_cons_of_mem _ ho, hbounds⟩
  · intro other ho hother
    rcases List.mem_cons.mp ho with rfl | ho
    · -- the body takes all lines, so there is no room for another block
      have hall := hopen hother
      have hnone : blocks = [] := by
        refine List.eq_nil_iff_forall_not_mem.mpr ?_
        intro next hn
        have hge := hmore.start_ge next hn
        have hle := hmore.start_le next hn
        have hlt := hmore.stop_lt next hn
        rw [List.length_cons] at hlt
        omega
      rw [hnone, List.length_cons]
      exact ⟨rfl, by omega⟩
    · obtain ⟨hlast, hend⟩ := hmore.last_of_open other ho hother
      exact ⟨by rw [List.getLast?_cons, hlast]; rfl, hend⟩

/-- **The search keeps its blocks arranged**, line after line. -/
theorem Lawful.arranged_blocksFrom (hs : scanner.Lawful) (number skip : Nat)
    (lines : List (List Char)) :
    scanner.Arranged number skip lines (scanner.blocksFrom number skip lines) := by
  induction lines generalizing number skip with
  | nil => exact .nil
  | cons line rest ih =>
    cases skip with
    | succ skip =>
      rw [blocksFrom_skip]
      exact (ih (number + 1) skip).pass nofun
    | zero =>
      cases hline : scanner.header? line with
      | none =>
        rw [blocksFrom_of_none hline]
        exact (ih (number + 1) 0).pass fun _ => hline
      | some name =>
        rw [blocksFrom_of_some hline]
        exact .cons (hs.length_pos line rest) (hs.length_le (line :: rest)) rfl rfl hline
          (hs.length_of_open (line :: rest)) (ih (number + 1) _)

end Scanner

/-- A block starts and stops at lines that are there. -/
theorem BlockKind.bounds (kind : BlockKind) {lines : List (List Char)} {block : Block}
    (h : block ∈ kind.blocks lines) :
    1 ≤ block.start ∧ block.start ≤ block.stop ∧ block.stop ≤ lines.length := by
  rw [kind.blocks_eq] at h
  have harranged := kind.lawful.arranged_blocksFrom 1 0 lines
  have hge := harranged.start_ge block h
  have hlt := harranged.stop_lt block h
  exact ⟨hge, harranged.start_le block h, by omega⟩

/-- **Where the blocks of a kind lie.**  Inside the lines, in order and apart; each starts at a
header line of its name; every header line lies inside a block; and only the last block can
fail to close, in which case it goes on to the last line. -/
theorem BlockKind.blocks_layout (kind : BlockKind) (lines : List (List Char)) :
    (∀ block ∈ kind.blocks lines,
      1 ≤ block.start ∧ block.start ≤ block.stop ∧ block.stop ≤ lines.length) ∧
    (kind.blocks lines).Pairwise (fun block later => block.stop < later.start) ∧
    (∀ block ∈ kind.blocks lines, ∃ line,
      lines[block.start - 1]? = some line ∧ kind.Declares line block.name) ∧
    (∀ index line name, lines[index]? = some line → kind.Declares line name →
      ∃ block ∈ kind.blocks lines, block.start ≤ index + 1 ∧ index + 1 ≤ block.stop) ∧
    (∀ block ∈ kind.blocks lines, block.closed = false →
      (kind.blocks lines).getLast? = some block ∧ block.stop = lines.length) := by
  have h : kind.scanner.Arranged 1 0 lines (kind.blocks lines) := by
    rw [kind.blocks_eq]
    exact kind.lawful.arranged_blocksFrom 1 0 lines
  refine ⟨?_, h.apart, ?_, ?_, ?_⟩
  · intro block hb
    have hge := h.start_ge block hb
    have hlt := h.stop_lt block hb
    exact ⟨hge, h.start_le block hb, by omega⟩
  · intro block hb
    obtain ⟨line, hget, hname⟩ := h.header block hb
    exact ⟨line, hget, (kind.header?_eq_some_iff line block.name).mp hname⟩
  · intro index line name hget hdeclares
    obtain ⟨block, hb, hlow, hhigh⟩ := h.covered index line name hget
      ((kind.header?_eq_some_iff line name).mpr hdeclares) (Nat.zero_le _)
    exact ⟨block, hb, by omega, by omega⟩
  · intro block hb hopen
    obtain ⟨hlast, hstop⟩ := h.last_of_open block hb hopen
    exact ⟨hlast, by omega⟩

end Code
end LineLint
