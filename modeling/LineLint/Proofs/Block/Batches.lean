import LineLint.Proofs.Block.Boundary
import LineLint.Proofs.Block.Depth
import LineLint.Proofs.Block.Kind

/-! # Where routines of T-SQL stop

A routine stops at the line that brings the depth back to zero once something has been
opened, or in front of the next separator, whichever comes first, and with the text if
neither comes.  `procedureBlocks_boundary` says so in terms of line numbers, with the
depth added up from the header line on, and says what the largest depth is.
-/
namespace LineLint
namespace Code
namespace TransactSql

/-- Depth behind line `number`, when it is zero in front of line `first`. -/
def depthAt (lines : List (List Char)) (first number : Nat) : Nat :=
  depthBehind ((stretch lines first number).map delta)

/-- Whether the lines from `first` to `number` open something and leave nothing open. -/
def Settles (lines : List (List Char)) (first number : Nat) : Prop :=
  first ≤ number ∧ number ≤ lines.length ∧
    (∃ line ∈ stretch lines first number, 0 < (delta line).opens) ∧ depthAt lines first number = 0

/-- Whether line `number`, behind line `first`, separates batches. -/
def Separates (lines : List (List Char)) (first number : Nat) : Prop :=
  first < number ∧ ∃ line, lines[number - 1]? = some line ∧ isBatchSeparator line = true

/-- In front of its first line a routine has depth zero. -/
theorem depthAt_start (lines : List (List Char)) {first : Nat} (hfirst : 1 ≤ first) :
    depthAt lines first (first - 1) = 0 := by
  rw [depthAt, stretch, show first - 1 + 1 - first = 0 by omega]
  rfl

/-- A line opens first and closes then, and the depth does not fall below zero. -/
theorem depthAt_succ {lines : List (List Char)} {first number : Nat} {line : List Char}
    (hfirst : 1 ≤ first) (hle : first ≤ number) (hline : lines[number - 1]? = some line) :
    depthAt lines first number =
      depthAt lines first (number - 1) + (delta line).opens - (delta line).closes := by
  rw [depthAt, stretch_succ hfirst hle hline, List.map_append]
  exact depthBehind_concat _ _

theorem readsBy_procedureScanner : procedureScanner.ReadsBy procedureReader :=
  ⟨fun _ => rfl, fun _ => rfl⟩

theorem levels_behind (lines : List (List Char)) :
    (procedureReader.behind procedureReader.start lines).levels =
      DepthState.behind (lines.map delta) := by
  induction lines using List.reverseRecOn with
  | nil => rfl
  | append_singleton lines line ih =>
    rw [BodyReader.behind_concat, List.map_append]
    exact (congrArg (DepthState.apply · (delta line)) ih).trans
      (DepthState.behind_concat _ _).symm

theorem entered_behind (lines : List (List Char)) :
    (procedureReader.behind procedureReader.start lines).entered = true ↔
      ∃ line ∈ lines, 0 < (delta line).opens := by
  induction lines using List.reverseRecOn with
  | nil => simp [BodyReader.behind, procedureReader]
  | append_singleton lines line ih =>
    rw [BodyReader.behind_concat]
    simp only [procedureReader, BatchState.apply] at ih ⊢
    simp [ih, or_and_right, exists_or]

/-- A routine may stop with a line that settles it, or in front of a separator. -/
theorem mayStop_iff {lines : List (List Char)} {first number : Nat} (hfirst : 1 ≤ first) :
    procedureReader.MayStop lines first number ↔
      Settles lines first number ∨ Separates lines first (number + 1) := by
  have hends : ∀ line, procedureReader.endsWith
      (procedureReader.behind procedureReader.start (stretch lines first number)) line = true ↔
        (∃ line ∈ stretch lines first number, 0 < (delta line).opens) ∧
          depthAt lines first number = 0 := by
    intro line
    rw [← entered_behind, depthAt, ← DepthState.depth_behind, ← levels_behind]
    exact Bool.and_eq_true_iff.trans (and_congr_right' beq_iff_eq)
  simp only [BodyReader.MayStop, hends, exists_and_right]
  constructor
  · rintro ⟨hle, ⟨hsome, hopened, hdepth⟩ | hnext⟩
    · exact Or.inl ⟨hle, (exists_line_iff (hfirst.trans hle)).mp hsome, hopened, hdepth⟩
    · exact Or.inr ⟨Nat.lt_succ_of_le hle, hnext⟩
  · rintro (⟨hle, hlength, hopened, hdepth⟩ | ⟨hlt, hnext⟩)
    · exact ⟨hle, Or.inl ⟨(exists_line_iff (hfirst.trans hle)).mpr hlength, hopened, hdepth⟩⟩
    · exact ⟨Nat.le_of_lt_succ hlt, Or.inr hnext⟩

section
variable {lines : List (List Char)} {block : Block}
  (h : procedureScanner.Bounded procedureReader lines block)
include h

theorem closed_iff_exists : block.closed = true ↔
    (∃ number, Settles lines block.start number) ∨
      ∃ number, Separates lines block.start number := by
  constructor
  · intro hclosed
    rcases (mayStop_iff h.start_pos).mp (h.stops hclosed).1 with hsettles | hseparates
    · exact Or.inl ⟨_, hsettles⟩
    · exact Or.inr ⟨_, hseparates⟩
  · intro hexists
    cases hclosed : block.closed with
    | true => rfl
    | false =>
      have hnever := (h.goes_on hclosed).2
      rcases hexists with ⟨number, hsettles⟩ | ⟨number, hseparates⟩
      · exact absurd ((mayStop_iff h.start_pos).mpr (Or.inl hsettles)) (hnever number)
      · obtain ⟨before, rfl⟩ := Nat.exists_eq_add_of_lt hseparates.1
        exact absurd ((mayStop_iff h.start_pos).mpr (Or.inr hseparates)) (hnever _)

theorem stop_le_of_settles {number : Nat} (hsettles : Settles lines block.start number) :
    block.stop ≤ number := by
  have hclosed := (closed_iff_exists h).mpr (Or.inl ⟨number, hsettles⟩)
  exact (h.stops hclosed).2 ((mayStop_iff h.start_pos).mpr (Or.inl hsettles))

theorem stop_lt_of_separates {number : Nat} (hseparates : Separates lines block.start number) :
    block.stop < number := by
  have hclosed := (closed_iff_exists h).mpr (Or.inr ⟨number, hseparates⟩)
  obtain ⟨before, rfl⟩ := Nat.exists_eq_add_of_lt hseparates.1
  exact Nat.lt_succ_of_le
    ((h.stops hclosed).2 ((mayStop_iff h.start_pos).mpr (Or.inr hseparates)))

/-- A routine stops at the first of the places that come into question. -/
theorem isLeast_stop :
    IsLeast {stop | IsLeast {number | Settles lines block.start number} stop ∨
      IsLeast {number | Separates lines block.start number} (stop + 1) ∨ stop = lines.length}
      block.stop := by
  refine ⟨?_, ?_⟩
  · cases hclosed : block.closed with
    | false => exact Or.inr (Or.inr (h.goes_on hclosed).1)
    | true =>
      rcases (mayStop_iff h.start_pos).mp (h.stops hclosed).1 with hsettles | hseparates
      · exact Or.inl ⟨hsettles, fun _ => stop_le_of_settles h⟩
      · exact Or.inr (Or.inl ⟨hseparates, fun _ => stop_lt_of_separates h⟩)
  · rintro stop (hsettles | hseparates | rfl)
    · exact stop_le_of_settles h hsettles.1
    · exact Nat.le_of_lt_succ (stop_lt_of_separates h hseparates.1)
    · exact h.stop_le

theorem maxDepth_eq : block.maxDepth =
    (DepthState.behind ((stretch lines block.start block.stop).map delta)).maxDepth := by
  rw [h.maxDepth_eq (·.levels.maxDepth) fun _ => rfl, levels_behind]

/-- The largest depth, in terms of line numbers. -/
theorem isGreatest_maxDepth :
    IsGreatest {depth | depth = 0 ∨ ∃ number line, block.start ≤ number ∧ number ≤ block.stop ∧
      lines[number - 1]? = some line ∧
      depth = depthAt lines block.start (number - 1) + (delta line).opens} block.maxDepth := by
  have hgreatest := DepthState.isGreatest_maxDepth
    ((stretch lines block.start block.stop).map delta)
  rw [← maxDepth_eq h] at hgreatest
  convert hgreatest using 1
  ext depth
  refine or_congr_right ?_
  constructor
  · rintro ⟨number, line, hle, hstop, hline, rfl⟩
    refine ⟨number - block.start, delta line, ?_, ?_⟩
    · rw [List.getElem?_map, getElem?_stretch lines h.start_pos hle hstop, hline]
      rfl
    · rw [← List.map_take, take_stretch lines h.start_pos hle hstop]
      rfl
  · rintro ⟨index, found, hget, rfl⟩
    obtain ⟨line, hline, rfl⟩ := Option.map_eq_some_iff.mp (List.getElem?_map.symm.trans hget)
    have hlt := lt_of_getElem?_stretch hline
    have hle : block.start ≤ block.start + index := Nat.le_add_right _ _
    have hstop : block.start + index ≤ block.stop := by omega
    have hsame := getElem?_stretch lines h.start_pos hle hstop
    have htake := take_stretch lines h.start_pos hle hstop
    rw [Nat.add_sub_cancel_left] at hsame htake
    refine ⟨block.start + index, line, hle, hstop, hsame.symm.trans hline, ?_⟩
    rw [← List.map_take, htake]
    rfl

end

/-- **Where a routine stops.**  At the first line that settles it, in front of the first separator
or with the text, whichever comes first; it is closed unless only the end of the text stops it,
and no separator is inside.  Its largest depth is zero or that behind the openings of one of its
lines. -/
theorem procedureBlocks_boundary {lines : List (List Char)} {block : Block}
    (h : block ∈ procedureBlocks lines) :
    IsLeast {stop | IsLeast {number | Settles lines block.start number} stop ∨
      IsLeast {number | Separates lines block.start number} (stop + 1) ∨ stop = lines.length}
      block.stop ∧
    (block.closed = true ↔ (∃ number, Settles lines block.start number) ∨
      ∃ number, Separates lines block.start number) ∧
    (∀ number line, block.start < number → number ≤ block.stop →
      lines[number - 1]? = some line → isBatchSeparator line = false) ∧
    IsGreatest {depth | depth = 0 ∨ ∃ number line, block.start ≤ number ∧ number ≤ block.stop ∧
      lines[number - 1]? = some line ∧
      depth = depthAt lines block.start (number - 1) + (delta line).opens} block.maxDepth := by
  have hbounded := readsBy_procedureScanner.bounded h
  refine ⟨isLeast_stop hbounded, closed_iff_exists hbounded, ?_, isGreatest_maxDepth hbounded⟩
  intro number line hlt hle hline
  cases hseparator : isBatchSeparator line with
  | false => rfl
  | true =>
    have hstop := stop_lt_of_separates hbounded ⟨hlt, line, hline, hseparator⟩
    omega

/-- A routine that the separator cuts off in front of its last line: what is closed in front of the
routine and the transaction that its header line begins do not count, and the second block is
still open. -/
theorem procedureBlocks_boundary_beside_separator :
    let lines := ["END".toList, "create proc p as begin tran".toList, "begin begin".toList,
      "end".toList, "GO 5".toList, "end".toList]
    let block : Block := ⟨['p'], 2, 4, true, 2, 0⟩
    block ∈ procedureBlocks lines ∧
      IsLeast {stop | IsLeast {number | Settles lines 2 number} stop ∨
        IsLeast {number | Separates lines 2 number} (stop + 1) ∨ stop = 6} 4 ∧
      ∃ number line, 2 ≤ number ∧ number ≤ 4 ∧ lines[number - 1]? = some line ∧
        2 = depthAt lines 2 (number - 1) + (delta line).opens := by
  intro lines block
  have h : block ∈ procedureBlocks lines := by decide
  obtain ⟨hstop, -, -, hzero | hpassed, -⟩ := procedureBlocks_boundary h
  · cases hzero
  · exact ⟨h, hstop, hpassed⟩

end TransactSql
end Code
end LineLint
