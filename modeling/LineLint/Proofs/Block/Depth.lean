import LineLint.Code.Nesting
import Mathlib.Algebra.Order.Ring.Nat
import Mathlib.Data.List.Induction
import Mathlib.Order.Bounds.Basic

/-! # Depth over lines

What the lines of a stretch open and close is added up line by line, and closings that
close nothing are lost.  `depthBehind` is the depth that is left, and the state that the
scanners carry along holds it together with the largest depth there has been behind the
openings of a line (`DepthState.isGreatest_maxDepth`).
-/
namespace LineLint
namespace Code

/-- Depth behind lines that open and close so much, when it is zero in front of them. -/
def depthBehind (deltas : List Delta) : Nat :=
  deltas.foldl (fun depth delta => depth + delta.opens - delta.closes) 0

@[simp] theorem depthBehind_nil : depthBehind [] = 0 := rfl

/-- Closings do not take the depth below zero. -/
@[simp] theorem depthBehind_concat (deltas : List Delta) (delta : Delta) :
    depthBehind (deltas ++ [delta]) = depthBehind deltas + delta.opens - delta.closes := by
  rw [depthBehind, List.foldl_append]
  rfl

namespace DepthState

/-- The state behind lines that open and close so much. -/
def behind (deltas : List Delta) : DepthState :=
  deltas.foldl apply initial

theorem behind_concat (deltas : List Delta) (delta : Delta) :
    behind (deltas ++ [delta]) = (behind deltas).apply delta := by
  rw [behind, List.foldl_append]
  rfl

theorem depth_behind (deltas : List Delta) : (behind deltas).depth = depthBehind deltas := by
  induction deltas using List.reverseRecOn with
  | nil => rfl
  | append_singleton deltas delta ih => rw [behind_concat, depthBehind_concat, apply, ih]

/-- The depths that count for the largest one: zero, and that behind the openings of a line. -/
def Passes (deltas : List Delta) (depth : Nat) : Prop :=
  depth = 0 ∨ ∃ index delta, deltas[index]? = some delta ∧
    depth = depthBehind (deltas.take index) + delta.opens

theorem passes_concat_iff (deltas : List Delta) (delta : Delta) (depth : Nat) :
    Passes (deltas ++ [delta]) depth ↔
      Passes deltas depth ∨ depth = depthBehind deltas + delta.opens := by
  constructor
  · rintro (rfl | ⟨index, other, hget, rfl⟩)
    · exact Or.inl (Or.inl rfl)
    · have hindex := (List.getElem?_eq_some_iff.mp hget).1
      rw [List.length_append, List.length_singleton] at hindex
      rcases Nat.lt_or_ge index deltas.length with hlt | hge
      · rw [List.getElem?_append_left hlt] at hget
        rw [List.take_append_of_le_length hlt.le]
        exact Or.inl (Or.inr ⟨index, other, hget, rfl⟩)
      · obtain rfl : index = deltas.length := by omega
        obtain rfl : delta = other := by simpa using hget
        rw [List.take_left]
        exact Or.inr rfl
  · rintro ((rfl | ⟨index, other, hget, rfl⟩) | rfl)
    · exact Or.inl rfl
    · have hlt := (List.getElem?_eq_some_iff.mp hget).1
      refine Or.inr ⟨index, other, ?_, ?_⟩
      · rw [List.getElem?_append_left hlt, hget]
      · rw [List.take_append_of_le_length hlt.le]
    · exact Or.inr ⟨deltas.length, delta, by simp, by rw [List.take_left]⟩

/-- **The state holds the largest depth that has been passed.** -/
theorem isGreatest_maxDepth (deltas : List Delta) :
    IsGreatest {depth | Passes deltas depth} (behind deltas).maxDepth := by
  induction deltas using List.reverseRecOn with
  | nil =>
    refine ⟨Or.inl rfl, ?_⟩
    rintro depth (rfl | ⟨index, delta, hget, -⟩)
    · exact Nat.le_refl 0
    · simp at hget
  | append_singleton deltas delta ih =>
    rw [behind_concat, apply, depth_behind]
    obtain ⟨hpassed, hupper⟩ := ih
    refine ⟨?_, ?_⟩
    · rw [Set.mem_ofPred_eq, passes_concat_iff]
      rcases Nat.le_total (depthBehind deltas + delta.opens) (behind deltas).maxDepth with h | h
      · rw [Nat.max_eq_left h]
        exact Or.inl hpassed
      · rw [Nat.max_eq_right h]
        exact Or.inr rfl
    · intro depth hdepth
      rcases (passes_concat_iff deltas delta depth).mp hdepth with hdepth | rfl
      · exact Nat.le_trans (hupper hdepth) (Nat.le_max_left _ _)
      · exact Nat.le_max_right _ _

/-- The depth never gets past all that has been opened. -/
theorem maxDepth_behind_le (deltas : List Delta) :
    (behind deltas).depth ≤ (deltas.map (·.opens)).sum ∧
      (behind deltas).maxDepth ≤ (deltas.map (·.opens)).sum := by
  induction deltas using List.reverseRecOn with
  | nil => exact ⟨Nat.le_refl 0, Nat.le_refl 0⟩
  | append_singleton deltas delta ih =>
    obtain ⟨hdepth, hmax⟩ := ih
    rw [behind_concat, List.map_append, List.sum_append, List.map_singleton, List.sum_singleton]
    simp only [apply]
    omega

/-- What any line opens counts for the largest depth. -/
theorem opens_le_maxDepth {deltas : List Delta} {index : Nat} {delta : Delta}
    (h : deltas[index]? = some delta) : delta.opens ≤ (behind deltas).maxDepth := by
  have hle := (isGreatest_maxDepth deltas).2 (Or.inr ⟨index, delta, h, rfl⟩)
  omega

end DepthState
end Code
end LineLint
