import LineLint.Proofs.Block.Braces
import Mathlib.Algebra.Order.Ring.Nat

/-! # Braces counted line by line

The reader of a body in braces carries a signed depth along, character by character.  The
nesting of a single line is told by its delta, which counts the braces of the line wherever they
stand (`CSharp.delta`).  The two agree: how far a body extends can be told by adding up deltas,
and so can bounds for its largest depth (`CSharp.block_of_deltas`).

The sums do not tell the largest depth itself, which also depends on the order of the braces on
a line.
-/
namespace LineLint
namespace Code
namespace CSharp

variable {kind : BlockKind} {lines : List (List Char)} {block : Block} {first number : Nat}

/-- The sum of what the lines from number `first` to number `last` open. -/
def openedOver (lines : List (List Char)) (first last : Nat) : Nat :=
  ((stretch lines first last).map fun line => (delta line).opens).sum

/-- The sum of what the lines from number `first` to number `last` close. -/
def closedOver (lines : List (List Char)) (first last : Nat) : Nat :=
  ((stretch lines first last).map fun line => (delta line).closes).sum

/-- Whether the lines from number `first` to number `number` make up a whole body by their deltas:
something is opened on them, and they close as much as they open. -/
structure CompletesBody (lines : List (List Char)) (first number : Nat) : Prop where
  /-- The lines begin with the first one. -/
  le : first ≤ number
  /-- There is a line of this number. -/
  le_length : number ≤ lines.length
  /-- Something is opened. -/
  opens : 1 ≤ openedOver lines first number
  /-- All of it may be closed. -/
  closes : openedOver lines first number ≤ closedOver lines first number

/-! ## Sums of deltas and texts -/

theorem openedOver_eq_count (lines : List (List Char)) (first last : Nat) :
    openedOver lines first last = (stretch lines first last).flatten.count '{' :=
  List.count_flatten.symm

theorem closedOver_eq_count (lines : List (List Char)) (first last : Nat) :
    closedOver lines first last = (stretch lines first last).flatten.count '}' :=
  List.count_flatten.symm

/-- The depth behind some lines is what they open less what they close. -/
theorem balance_stretch (lines : List (List Char)) (first last : Nat) :
    balance (stretch lines first last).flatten =
      (openedOver lines first last : Int) - closedOver lines first last := by
  rw [openedOver_eq_count, closedOver_eq_count, balance]

/-- A text never gets deeper than it has opening braces. -/
theorem balance_le_count {front text : List Char} (h : front <+: text) :
    balance front ≤ text.count '{' := by
  have hle : front.count '{' ≤ text.count '{' := h.sublist.count_le _
  rw [balance]
  omega

/-- A body in braces may stop where the deltas of its lines say that it is complete. -/
theorem mayStop_iff_completesBody (hfirst : 1 ≤ first) :
    braceReader.MayStop lines first number ↔ CompletesBody lines first number := by
  have hopens : '{' ∈ (stretch lines first number).flatten ↔ 1 ≤ openedOver lines first number := by
    rw [openedOver_eq_count, ← List.count_pos_iff]
    rfl
  have hcloses : balance (stretch lines first number).flatten ≤ 0 ↔
      openedOver lines first number ≤ closedOver lines first number := by
    rw [balance_stretch]
    omega
  rw [mayStop_iff hfirst, hopens, hcloses]
  exact ⟨fun ⟨hle, hlength, hopened, hclosed⟩ => ⟨hle, hlength, hopened, hclosed⟩,
    fun ⟨hle, hlength, hopened, hclosed⟩ => ⟨hle, hlength, hopened, hclosed⟩⟩

/-! ## Blocks -/

/-- The depth behind each line of a block counts for its largest depth. -/
theorem balance_le_maxDepth (hkind : kind.InBraces) (h : block ∈ kind.blocks lines)
    (hstop : number ≤ block.stop) :
    balance (stretch lines block.start number).flatten ≤ block.maxDepth := by
  obtain ⟨-, hupper⟩ :=
    BraceState.isGreatest_maxDepth (stretch lines block.start block.stop).flatten
  have hle := hupper ⟨_, (prefix_stretch lines block.start hstop).flatten, rfl⟩
  rw [(bounded_of_inBraces hkind h).2]
  omega

/-- The largest depth of a block is at most what its lines open. -/
theorem maxDepth_le_openedOver (hkind : kind.InBraces) (h : block ∈ kind.blocks lines) :
    block.maxDepth ≤ openedOver lines block.start block.stop := by
  obtain ⟨⟨front, hfront, hmax⟩, -⟩ :=
    BraceState.isGreatest_maxDepth (stretch lines block.start block.stop).flatten
  have hle := balance_le_count hfront
  rw [(bounded_of_inBraces hkind h).2, openedOver_eq_count]
  omega

/-- **Bodies in braces by the deltas of their lines.**  A body is closed exactly if its lines
complete it at some line, and it stops at the first line of this kind, or at the last line if there
is none.  Behind each of its lines the largest depth is at least what has been opened less what has
been closed, and it is at most what its lines open. -/
theorem block_of_deltas (hkind : kind.InBraces) (h : block ∈ kind.blocks lines) :
    (block.closed = true ↔ ∃ number, CompletesBody lines block.start number) ∧
    (block.closed = true →
      IsLeast {number | CompletesBody lines block.start number} block.stop) ∧
    (block.closed = false → block.stop = lines.length) ∧
    (∀ number, block.start ≤ number → number ≤ block.stop →
      (openedOver lines block.start number : Int) - closedOver lines block.start number ≤
        block.maxDepth) ∧
    block.maxDepth ≤ openedOver lines block.start block.stop := by
  have hbounded := (bounded_of_inBraces hkind h).1
  have hmay : ∀ number, braceReader.MayStop lines block.start number ↔
      CompletesBody lines block.start number :=
    fun number => mayStop_iff_completesBody hbounded.start_pos
  have hleast : block.closed = true →
      IsLeast {number | CompletesBody lines block.start number} block.stop := by
    intro hclosed
    simpa only [hmay] using hbounded.stops hclosed
  refine ⟨⟨fun hclosed => ⟨block.stop, (hleast hclosed).1⟩, ?_⟩, hleast,
    fun hopen => (hbounded.goes_on hopen).1, ?_, maxDepth_le_openedOver hkind h⟩
  · rintro ⟨number, hcomplete⟩
    by_contra hopen
    exact (hbounded.goes_on (Bool.eq_false_iff.mpr hopen)).2 number ((hmay number).mpr hcomplete)
  · intro number _ hstop
    rw [← balance_stretch]
    exact balance_le_maxDepth hkind h hstop

/-- The end of another body stands in front of this header, and a brace in its comment.  So the depth
is below zero behind the first line, and the largest depth is one though three braces are opened. -/
theorem block_of_deltas_behind_brace :
    let lines := ["\x7d void A() // \x7d".toList, "\x7b \x7b \x7b".toList, "x \x7d".toList,
      "\x7d".toList]
    let block : Block := ⟨['A'], 1, 3, true, 1, 0⟩
    BlockKind.csharpMethod.InBraces ∧ block ∈ BlockKind.csharpMethod.blocks lines ∧
      IsLeast {number | CompletesBody lines 1 number} 3 ∧
      (openedOver lines 1 2 : Int) - closedOver lines 1 2 ≤ 1 ∧ 1 ≤ openedOver lines 1 3 := by
  intro lines block
  have hkind : BlockKind.csharpMethod.InBraces := Or.inl rfl
  have h : block ∈ BlockKind.csharpMethod.blocks lines := by decide
  obtain ⟨-, hstop, -, hlower, hupper⟩ := block_of_deltas hkind h
  exact ⟨hkind, h, hstop rfl, hlower 2 (by decide) (by decide), hupper⟩

end CSharp
end Code
end LineLint
