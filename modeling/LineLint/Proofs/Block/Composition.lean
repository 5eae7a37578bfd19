import LineLint.Proofs.Block.Kind

/-! # Blocks of two texts in a row

If every block of a text closes, another text can be put behind it: the blocks
of both are the blocks of the first, followed by those of the second, moved on
by the length of the first (`BlockKind.blocks_append`).  Nothing is carried over
the seam.  A body that has closed is the same again whatever follows it
(`Scanner.Lawful.body_append`), and where a search starts only shows in the
numbers it gives (`Scanner.Lawful.blocksFrom_add`).
-/
namespace LineLint
namespace Code

/-- A block `distance` lines further down. -/
def Block.shift (distance : Nat) (block : Block) : Block :=
  { block with start := block.start + distance, stop := block.stop + distance }

namespace Scanner
variable {scanner : Scanner}

/-- Where a search starts only shows in the numbers of its blocks. -/
theorem Lawful.blocksFrom_add (hs : scanner.Lawful) (number skip distance : Nat)
    (lines : List (List Char)) :
    scanner.blocksFrom (number + distance) skip lines =
      (scanner.blocksFrom number skip lines).map (Block.shift distance) := by
  induction lines generalizing number skip with
  | nil => rfl
  | cons line rest ih =>
    have hnext : number + distance + 1 = number + 1 + distance := by omega
    cases skip with
    | succ skip => rw [blocksFrom_skip, blocksFrom_skip, hnext, ih]
    | zero =>
      cases hline : scanner.header? line with
      | none => rw [blocksFrom_of_none hline, blocksFrom_of_none hline, hnext, ih]
      | some name =>
        have hpos := hs.length_pos line rest
        have hblock : scanner.blockAt (number + distance) name (line :: rest) =
            (scanner.blockAt number name (line :: rest)).shift distance := by
          simp only [blockAt, Block.shift, Block.mk.injEq, and_true, true_and]
          omega
        rw [blocksFrom_of_some hline, blocksFrom_of_some hline, List.map_cons, hblock, hnext, ih]

/-- **A search goes on behind closed blocks as if it started there.** -/
theorem Lawful.blocksFrom_append (hs : scanner.Lawful) {number skip : Nat}
    {lines : List (List Char)} (more : List (List Char)) (hskip : skip ≤ lines.length)
    (hclosed : ∀ block ∈ scanner.blocksFrom number skip lines, block.closed = true) :
    scanner.blocksFrom number skip (lines ++ more) =
      scanner.blocksFrom number skip lines ++
        scanner.blocksFrom (number + lines.length) 0 more := by
  induction lines generalizing number skip with
  | nil =>
    obtain rfl : skip = 0 := Nat.le_zero.mp hskip
    rfl
  | cons line rest ih =>
    have hend : number + 1 + rest.length = number + (line :: rest).length := by
      rw [List.length_cons]
      omega
    rw [List.cons_append]
    cases skip with
    | succ skip =>
      rw [blocksFrom_skip] at hclosed ⊢
      rw [blocksFrom_skip, ih (Nat.le_of_succ_le_succ hskip) hclosed, hend]
    | zero =>
      cases hline : scanner.header? line with
      | none =>
        rw [blocksFrom_of_none hline] at hclosed ⊢
        rw [blocksFrom_of_none hline, ih (Nat.zero_le _) hclosed, hend]
      | some name =>
        rw [blocksFrom_of_some hline] at hclosed ⊢
        -- the body closes inside `line :: rest`, so `more` does not change it
        have hbody : scanner.body (line :: (rest ++ more)) = scanner.body (line :: rest) :=
          hs.body_append (line :: rest) more (hclosed _ List.mem_cons_self)
        have hle : (scanner.body (line :: rest)).length - 1 ≤ rest.length :=
          Nat.sub_le_of_le_add (hs.length_le (line :: rest))
        have hrest := ih hle fun block hb => hclosed block (List.mem_cons_of_mem _ hb)
        rw [blocksFrom_of_some hline, List.cons_append, hbody, hrest, hend]
        simp only [blockAt, hbody]

end Scanner

/-- **Scanners compose.**  Behind lines whose blocks all close, the blocks of further lines are
those they have on their own, moved on. -/
theorem BlockKind.blocks_append (kind : BlockKind) {lines : List (List Char)}
    (more : List (List Char)) (hclosed : ∀ block ∈ kind.blocks lines, block.closed = true) :
    kind.blocks (lines ++ more) =
      kind.blocks lines ++ (kind.blocks more).map (Block.shift lines.length) := by
  rw [kind.blocks_eq] at hclosed
  rw [kind.blocks_eq, kind.blocks_eq, kind.blocks_eq]
  calc kind.scanner.blocksFrom 1 0 (lines ++ more)
      = kind.scanner.blocksFrom 1 0 lines ++
          kind.scanner.blocksFrom (1 + lines.length) 0 more :=
        kind.lawful.blocksFrom_append more (Nat.zero_le _) hclosed
    _ = kind.scanner.blocksFrom 1 0 lines ++
          (kind.scanner.blocksFrom 1 0 more).map (Block.shift lines.length) := by
        rw [kind.lawful.blocksFrom_add]

/-- A separator directly behind the first text and a function in the second. -/
theorem BlockKind.blocks_append_at_separator :
    let lines := ["CREATE PROC a AS".toList, "BEGIN".toList, "END".toList]
    let more := ["GO".toList, "create function [dbo].[f](@x int)".toList]
    (∀ block ∈ sqlProcedure.blocks lines, block.closed = true) ∧
      sqlProcedure.blocks (lines ++ more) =
        [⟨['a'], 1, 3, true, 1, 0⟩, ⟨['f'], 5, 5, false, 0, 0⟩] := by
  intro lines more
  have hclosed : ∀ block ∈ sqlProcedure.blocks lines, block.closed = true := by decide +kernel
  refine ⟨hclosed, ?_⟩
  rw [sqlProcedure.blocks_append more hclosed]
  decide +kernel

end Code
end LineLint
