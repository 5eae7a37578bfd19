import LineLint.Proofs.Block.Boundary
import LineLint.Proofs.Block.Kind
import Mathlib.Data.List.Induction
import Mathlib.Data.List.Infix
import Mathlib.Order.Bounds.Basic

/-! # Depth of braces

The state of a reader of braces is a function of the characters read: opening minus
closing braces, the largest such difference over all first parts of the text, and whether
there has been an opening brace (`BraceState.depth_behind`,
`BraceState.isGreatest_maxDepth`, `BraceState.entered_behind`).

A body that is closed has had an opening brace, but its depth need not have been positive:
closing braces in front of the first opening one are counted too.  `maxDepth_pos_iff` says
when it has been, and where a body stops of which it has not.
-/
namespace LineLint
namespace Code
namespace CSharp

theorem brace_cases (c : Char) : c = '{' ∨ c = '}' ∨ (c ≠ '{' ∧ c ≠ '}') := by
  by_cases hopen : c = '{'
  · exact Or.inl hopen
  · by_cases hclose : c = '}'
    · exact Or.inr (Or.inl hclose)
    · exact Or.inr (Or.inr ⟨hopen, hclose⟩)

/-- Opening minus closing braces. -/
def balance (text : List Char) : Int :=
  text.count '{' - text.count '}'

@[simp] theorem balance_nil : balance [] = 0 := rfl

theorem balance_append (text more : List Char) :
    balance (text ++ more) = balance text + balance more := by
  simp only [balance, List.count_append]
  omega

@[simp] theorem balance_open : balance ['{'] = 1 := rfl

@[simp] theorem balance_close : balance ['}'] = -1 := rfl

theorem balance_eq_zero {text : List Char} (hopen : '{' ∉ text) (hclose : '}' ∉ text) :
    balance text = 0 := by
  rw [balance, List.count_eq_zero.mpr hopen, List.count_eq_zero.mpr hclose]
  rfl

theorem balance_other {c : Char} (h : c ≠ '{' ∧ c ≠ '}') : balance [c] = 0 :=
  balance_eq_zero (by simpa using Ne.symm h.1) (by simpa using Ne.symm h.2)

namespace BraceState

/-- The state behind a text. -/
def behind (text : List Char) : BraceState :=
  text.foldl push initial

theorem behind_concat (text : List Char) (c : Char) :
    behind (text ++ [c]) = (behind text).push c := by
  rw [behind, List.foldl_append]
  rfl

theorem push_open (state : BraceState) :
    state.push '{' = ⟨state.depth + 1, max state.maxDepth (state.depth + 1), true⟩ := rfl

theorem push_close (state : BraceState) :
    state.push '}' = { state with depth := state.depth - 1 } := rfl

theorem push_other {c : Char} (h : c ≠ '{' ∧ c ≠ '}') (state : BraceState) :
    state.push c = state := by
  rw [push, if_neg h.1, if_neg h.2]

theorem depth_behind (text : List Char) : (behind text).depth = balance text := by
  induction text using List.reverseRecOn with
  | nil => rfl
  | append_singleton text c ih =>
    rw [behind_concat, balance_append, ← ih]
    rcases brace_cases c with rfl | rfl | hother
    · rw [push_open, balance_open]
    · rw [push_close, balance_close]
      rfl
    · rw [push_other hother, balance_other hother, Int.add_zero]

theorem entered_behind (text : List Char) : (behind text).entered = true ↔ '{' ∈ text := by
  induction text using List.reverseRecOn with
  | nil => simp [behind, initial]
  | append_singleton text c ih =>
    rw [behind_concat, List.mem_append, List.mem_singleton, ← ih]
    rcases brace_cases c with rfl | rfl | hother
    · rw [push_open]
      simp
    · rw [push_close, or_iff_left (by decide)]
    · rw [push_other hother, or_iff_left (Ne.symm hother.1)]

/-- A character makes the largest depth that of the new place, if that is larger. -/
theorem maxDepth_push {state : BraceState} (h : state.depth ≤ state.maxDepth) (c : Char) :
    (state.push c).maxDepth = max state.maxDepth (state.push c).depth := by
  rcases brace_cases c with rfl | rfl | hother
  · rw [push_open]
  · rw [push_close]
    exact (max_eq_left (show state.depth - 1 ≤ state.maxDepth by omega)).symm
  · rw [push_other hother, max_eq_left h]

/-- **The state holds the largest depth there has been.** -/
theorem isGreatest_maxDepth (text : List Char) :
    IsGreatest {depth | ∃ front, front <+: text ∧ depth = balance front}
      (behind text).maxDepth := by
  induction text using List.reverseRecOn with
  | nil =>
    refine ⟨⟨[], List.nil_prefix, rfl⟩, ?_⟩
    rintro depth ⟨front, hfront, rfl⟩
    rw [List.prefix_nil.mp hfront]
    exact Int.le_refl 0
  | append_singleton text c ih =>
    obtain ⟨⟨front, hfront, hmax⟩, hupper⟩ := ih
    have hdepth : (behind text).depth ≤ (behind text).maxDepth :=
      hupper ⟨text, List.prefix_rfl, depth_behind text⟩
    rw [behind_concat, maxDepth_push hdepth, ← behind_concat, depth_behind]
    refine ⟨?_, ?_⟩
    · rcases le_total (balance (text ++ [c])) (behind text).maxDepth with hle | hle
      · rw [max_eq_left hle]
        exact ⟨front, hfront.trans (List.prefix_append text [c]), hmax⟩
      · rw [max_eq_right hle]
        exact ⟨text ++ [c], List.prefix_rfl, rfl⟩
    · rintro depth ⟨other, hother, rfl⟩
      rcases List.prefix_concat_iff.mp hother with rfl | hother
      · exact le_max_right _ _
      · exact le_trans (hupper ⟨other, hother, rfl⟩) (le_max_left _ _)

end BraceState

/-! ## Bodies in braces -/

theorem behind_braceReader (lines : List (List Char)) :
    braceReader.behind braceReader.start lines = BraceState.behind lines.flatten :=
  List.foldl_flatten.symm

/-- A body may stop with a line behind which there has been an opening brace and none is open. -/
theorem mayStop_iff {lines : List (List Char)} {first number : Nat} (hfirst : 1 ≤ first) :
    braceReader.MayStop lines first number ↔ first ≤ number ∧ number ≤ lines.length ∧
      '{' ∈ (stretch lines first number).flatten ∧
      balance (stretch lines first number).flatten ≤ 0 := by
  have hends : ∀ line, braceReader.endsWith
      (braceReader.behind braceReader.start (stretch lines first number)) line = true ↔
        '{' ∈ (stretch lines first number).flatten ∧
          balance (stretch lines first number).flatten ≤ 0 := by
    intro line
    rw [behind_braceReader, ← BraceState.entered_behind, ← BraceState.depth_behind]
    exact Bool.and_eq_true_iff.trans (and_congr_right' decide_eq_true_iff)
  rw [BodyReader.mayStop_iff_endsWith fun _ => rfl]
  simp only [hends, exists_and_right]
  refine and_congr_right fun hle => ?_
  rw [exists_line_iff (hfirst.trans hle)]

theorem readsBy_methodScanner : methodScanner.ReadsBy braceReader :=
  ⟨fun _ => rfl, fun _ => rfl⟩

theorem readsBy_classScanner : classScanner.ReadsBy braceReader :=
  ⟨fun _ => rfl, fun _ => rfl⟩

end CSharp

/-- The kinds of blocks whose bodies stand in braces. -/
def BlockKind.InBraces (kind : BlockKind) : Prop :=
  kind = csharpMethod ∨ kind = csharpClass

namespace CSharp
variable {kind : BlockKind} {lines : List (List Char)} {block : Block}

theorem bounded_of_inBraces (hkind : kind.InBraces) (h : block ∈ kind.blocks lines) :
    kind.scanner.Bounded braceReader lines block ∧ block.maxDepth =
      (BraceState.behind (stretch lines block.start block.stop).flatten).maxDepth.toNat := by
  rw [kind.blocks_eq] at h
  rw [← behind_braceReader]
  rcases hkind with rfl | rfl
  · have hbounded := readsBy_methodScanner.bounded h
    exact ⟨hbounded, hbounded.maxDepth_eq (·.maxDepth.toNat) fun _ => rfl⟩
  · have hbounded := readsBy_classScanner.bounded h
    exact ⟨hbounded, hbounded.maxDepth_eq (·.maxDepth.toNat) fun _ => rfl⟩

/-- The largest depth is positive if the depth is at one of the places of the block. -/
theorem maxDepth_pos_iff (hkind : kind.InBraces) (h : block ∈ kind.blocks lines) :
    1 ≤ block.maxDepth ↔
      ∃ front, front <+: (stretch lines block.start block.stop).flatten ∧ 0 < balance front := by
  obtain ⟨⟨front, hfront, hmax⟩, hupper⟩ :=
    BraceState.isGreatest_maxDepth (stretch lines block.start block.stop).flatten
  rw [(bounded_of_inBraces hkind h).2]
  constructor
  · intro hpos
    exact ⟨front, hfront, by omega⟩
  · rintro ⟨other, hother, hpos⟩
    have hle := hupper ⟨other, hother, rfl⟩
    omega

/-- Behind an opening brace in front of which nothing has been closed, the depth is positive. -/
theorem balance_pos_of_close_not_mem {front : List Char} (h : '}' ∉ front) :
    0 < balance (front ++ ['{']) := by
  rw [balance_append, balance_open, balance, List.count_eq_zero.mpr h]
  omega

/-- A body of which the depth is never positive stops with its first line that has an opening
brace. -/
theorem isLeast_stop_of_flat (hkind : kind.InBraces) (h : block ∈ kind.blocks lines)
    (hclosed : block.closed = true) (hflat : block.maxDepth = 0) :
    IsLeast {number | block.start ≤ number ∧
      ∃ line, lines[number - 1]? = some line ∧ '{' ∈ line} block.stop := by
  have hbounded := (bounded_of_inBraces hkind h).1
  obtain ⟨hmay, hfirst⟩ := hbounded.stops hclosed
  obtain ⟨-, -, hopened, -⟩ := (mayStop_iff hbounded.start_pos).mp hmay
  -- no line with an opening brace is passed, since behind it the body may stop
  have hstop : ∀ number line, block.start ≤ number → lines[number - 1]? = some line →
      '{' ∈ line → block.stop ≤ number := by
    intro number line hle hline hbrace
    by_contra hlt
    have hmem : line ∈ stretch lines block.start number :=
      (mem_stretch_iff hbounded.start_pos).mpr ⟨number, hle, Nat.le_refl number, hline⟩
    have hprefix : (stretch lines block.start number).flatten <+:
        (stretch lines block.start block.stop).flatten :=
      (prefix_stretch lines block.start (Nat.le_of_not_le hlt)).flatten
    have hdepth : balance (stretch lines block.start number).flatten ≤ 0 := by
      by_contra hpos
      have hmax := (maxDepth_pos_iff hkind h).mpr ⟨_, hprefix, by omega⟩
      omega
    have hlength := (exists_line_iff (hbounded.start_pos.trans hle)).mp ⟨line, hline⟩
    exact hlt (hfirst ((mayStop_iff hbounded.start_pos).mpr
      ⟨hle, hlength, List.mem_flatten.mpr ⟨line, hmem, hbrace⟩, hdepth⟩))
  obtain ⟨line, hmem, hbrace⟩ := List.mem_flatten.mp hopened
  obtain ⟨number, hle, hlast, hline⟩ := (mem_stretch_iff hbounded.start_pos).mp hmem
  obtain rfl : number = block.stop := Nat.le_antisymm hlast (hstop number line hle hline hbrace)
  exact ⟨⟨hle, line, hline, hbrace⟩, fun other ⟨hother, header, hget, hmember⟩ =>
    hstop other header hother hget hmember⟩

/-- **When the depth of a closed body has been positive.**  A body in braces that is closed has had
an opening brace.  Its largest depth is positive exactly if at some place behind the start of its
header line more braces have been opened than closed, which holds if its first brace is an opening
one.  If it is not, the body stops with the first line that has an opening brace. -/
theorem maxDepth_of_closed (hkind : kind.InBraces) (h : block ∈ kind.blocks lines)
    (hclosed : block.closed = true) :
    let text := (stretch lines block.start block.stop).flatten
    '{' ∈ text ∧
    (1 ≤ block.maxDepth ↔ ∃ front, front <+: text ∧ 0 < balance front) ∧
    ((∃ front back, text = front ++ '{' :: back ∧ '}' ∉ front) → 1 ≤ block.maxDepth) ∧
    (¬ 1 ≤ block.maxDepth → IsLeast {number | block.start ≤ number ∧
      ∃ line, lines[number - 1]? = some line ∧ '{' ∈ line} block.stop) := by
  intro text
  have hbounded := (bounded_of_inBraces hkind h).1
  have hstop := (mayStop_iff hbounded.start_pos).mp (hbounded.stops hclosed).1
  have hpos := maxDepth_pos_iff hkind h
  refine ⟨hstop.2.2.1, hpos, ?_, ?_⟩
  · rintro ⟨front, back, htext, hclose⟩
    refine hpos.mpr ⟨front ++ ['{'], ⟨back, ?_⟩, balance_pos_of_close_not_mem hclose⟩
    rw [List.append_assoc]
    exact htext.symm
  · intro hflat
    exact isLeast_stop_of_flat hkind h hclosed (by omega)

/-- A class whose opening brace stands on the line behind its header, with the end of the class in
front of it on the header line. -/
theorem maxDepth_of_closed_behind_class :
    let lines := ["class A \x7b \x7d".toList, "\x7d class B".toList,
      "\x7b \x7b \x7d".toList, "\x7d\x7d".toList]
    let block : Block := ⟨['B'], 2, 3, true, 1, 0⟩
    block ∈ BlockKind.csharpClass.blocks lines ∧
      ∃ front, front <+: "\x7d class B\x7b \x7b \x7d".toList ∧ 0 < balance front := by
  intro lines block
  have h : block ∈ BlockKind.csharpClass.blocks lines := by decide
  obtain ⟨-, hpos, -⟩ := maxDepth_of_closed (Or.inr rfl) h rfl
  exact ⟨h, hpos.mp (Nat.le_refl 1)⟩

/-- **A body that is closed before it begins**: the brace in front of the header takes the depth
below zero, and the brace of the body takes it back to zero. -/
theorem methodBlocks_of_brace_before_header :
    let lines := ["\x7d void A() \x7b".toList, "\x7d".toList]
    methodBlocks lines = [⟨['A'], 1, 1, true, 0, 0⟩] ∧
      ¬ ∀ block ∈ methodBlocks lines, block.closed = true → 1 ≤ block.maxDepth := by
  decide

end CSharp
end Code
end LineLint
