import LineLint.Proofs.Block.Procedures
import LineLint.Rule.MissingEnd

/-! # Missing terminators

The rule for missing terminators counts lines and does not look for blocks.  In a
well-formed text it counts as many procedures of each kind opened as closed
(`count_closes_layout`), and a terminator that is taken away is missed by the
count of its kind alone (`count_closes_cut`).  So the rule has nothing to say of
well-formed texts, and exactly one thing of those that lack one terminator
(`missingEnd_of_layout`).
-/
namespace LineLint

open Code.VisualBasic

namespace Rule

theorem ProcedureLine.of_neutral {line : List Char} (h : IsNeutral line) :
    ProcedureLine.of line = .neutral := by
  have hopens := h.opens
  rw [bodyHeader?] at hopens
  rw [ProcedureLine.of]
  cases hheader : procedureHeader? line with
  | none => rw [h.closes]
  | some found =>
    simp only [hheader] at hopens ⊢
    by_cases hbodiless : found.2.bodiless = true
    · rw [if_pos hbodiless]
    · rw [if_neg hbodiless] at hopens
      cases hopens

end Rule

namespace Code.VisualBasic

open Rule (ProcedureLine)

namespace Procedure
variable (proc : Procedure)

theorem of_headerLine : ProcedureLine.of proc.headerLine = .opens proc.kind := by
  simp [ProcedureLine.of, proc.declares, proc.hasBody]

theorem of_terminator : ProcedureLine.of proc.terminator = .closes proc.kind := by
  simp [ProcedureLine.of, procedureHeader?_of_procedureEnd? proc.closes, proc.closes]

/-- Of the lines of a procedure without its terminator, only the header line counts. -/
theorem map_of_openLines :
    proc.openLines.map ProcedureLine.of =
      .opens proc.kind :: List.replicate proc.inner.length .neutral := by
  rw [openLines, List.map_cons, proc.of_headerLine]
  refine congrArg (List.cons _) (List.eq_replicate_iff.mpr ⟨List.length_map _, ?_⟩)
  intro mark hmark
  obtain ⟨line, hline, rfl⟩ := List.mem_map.mp hmark
  exact ProcedureLine.of_neutral (proc.neutral line hline)

theorem count_opens_openLines (kind : ProcedureKind) :
    (proc.openLines.map ProcedureLine.of).count (.opens kind) =
      if proc.kind = kind then 1 else 0 := by
  simp [proc.map_of_openLines, List.count_cons, List.count_replicate]

theorem count_closes_openLines (kind : ProcedureKind) :
    (proc.openLines.map ProcedureLine.of).count (.closes kind) = 0 := by
  simp [proc.map_of_openLines, List.count_replicate]

end Procedure

/-- A well-formed text closes as many procedures of a kind as it opens. -/
theorem count_closes_layout (pieces : List Piece) (kind : ProcedureKind) :
    ((layout pieces).map ProcedureLine.of).count (.closes kind) =
      ((layout pieces).map ProcedureLine.of).count (.opens kind) := by
  induction pieces with
  | nil => rfl
  | cons piece pieces ih =>
    cases piece with
    | line text hneutral =>
      simpa [layout_line, ProcedureLine.of_neutral hneutral] using ih
    | procedure proc =>
      have hlines : (layout (.procedure proc :: pieces)).map ProcedureLine.of =
          proc.openLines.map ProcedureLine.of ++
            .closes proc.kind :: (layout pieces).map ProcedureLine.of := by
        rw [layout_procedure, List.map_append, List.map_cons, proc.of_terminator]
      rw [hlines, List.count_append, List.count_append, proc.count_closes_openLines,
        proc.count_opens_openLines]
      by_cases hkind : proc.kind = kind
      · simp [hkind, ih, Nat.add_comm]
      · simp [hkind, ih]

/-- Without the terminator of one procedure, a text closes one procedure of that kind too
few, and as many of the other kind as it opens. -/
theorem count_closes_cut (front back : List Piece) (proc : Procedure) (kind : ProcedureKind) :
    let marks := (layout front ++ (proc.openLines ++ layout back)).map ProcedureLine.of
    marks.count (.closes kind) + (if proc.kind = kind then 1 else 0) =
      marks.count (.opens kind) := by
  intro marks
  simp only [marks, List.map_append, List.count_append, proc.count_closes_openLines,
    proc.count_opens_openLines, count_closes_layout]
  omega

end Code.VisualBasic

namespace Rule

theorem lacksEnd_layout (pieces : List Piece) (kind : ProcedureKind) :
    lacksEnd kind (layout pieces) = false := by
  simp [lacksEnd, count_closes_layout]

theorem lacksEnd_cut (front back : List Piece) (proc : Procedure) (kind : ProcedureKind) :
    lacksEnd kind (layout front ++ (proc.openLines ++ layout back)) =
      decide (proc.kind = kind) := by
  have hcount := count_closes_cut front back proc kind
  simp only at hcount
  rw [lacksEnd, ← hcount]
  by_cases hkind : proc.kind = kind <;> simp [hkind]

/-- **Well-formed VB.NET is accepted, and a single cut is caught.**  In a text made of neutral
lines and procedures, the blocks of the procedures are exactly these procedures, closed and
from header to terminator, and no terminator is missed.  Without the terminator of one of the
procedures, exactly one issue is reported, that for procedures of its kind. -/
theorem missingEnd_of_layout (pieces : List Piece) :
    (procedureBlocks (layout pieces)).map
        (fun block => (block.name, block.start, block.stop, block.closed)) = spans 1 pieces ∧
    (∀ snippet : Snippet, snippet.lines = layout pieces → missingEnd.check snippet = []) ∧
    ∀ front proc back, pieces = front ++ .procedure proc :: back →
      layout pieces = layout front ++ (proc.openLines ++ proc.terminator :: layout back) ∧
      ∀ snippet : Snippet, snippet.lines = layout front ++ (proc.openLines ++ layout back) →
        missingEnd.check snippet = [missingEndIssue proc.kind] := by
  refine ⟨procedureBlocks_layout pieces, ?_, ?_⟩
  · intro snippet hlines
    simp [missingEnd, hlines, lacksEnd_layout]
  · rintro front proc back rfl
    constructor
    · rw [layout_append, layout_procedure]
    · intro snippet hlines
      simp only [missingEnd, hlines, lacksEnd_cut]
      cases proc.kind <;> rfl

/-- A `Sub` that lost its terminator, in front of a declaration without a body and of a `Function`
that has its own. -/
theorem missingEnd_of_layout_beside_declaration :
    let text :=
      "Public Sub A(x)\r\n  Exit Sub\nMustOverride Sub B()\nfunction C\n END\tFUNCTION ' x"
    let first : Procedure :=
      { kind := .sub
        header := ⟨['A'], some ['x'], false⟩
        headerLine := "Public Sub A(x)".toList
        inner := ["  Exit Sub".toList]
        terminator := "End Sub".toList
        declares := by decide +kernel
        hasBody := rfl
        neutral := List.forall_mem_singleton.mpr ⟨by decide +kernel, by decide +kernel⟩
        closes := by decide +kernel }
    let second : Procedure :=
      { kind := .function
        header := ⟨['C'], none, false⟩
        headerLine := "function C".toList
        inner := []
        terminator := " END\tFUNCTION ' x".toList
        declares := by decide +kernel
        hasBody := rfl
        neutral := List.forall_mem_nil _
        closes := by decide +kernel }
    let between : Piece :=
      .line "MustOverride Sub B()".toList ⟨by decide +kernel, by decide +kernel⟩
    spans 1 [.procedure first, between, .procedure second] =
        [(['A'], 1, 3, true), (['C'], 5, 6, true)] ∧
      missingEnd.check ⟨text.toList, .vbnet⟩ = [missingEndIssue .sub] := by
  intro text first second between
  obtain ⟨-, -, hcut⟩ := missingEnd_of_layout [.procedure first, between, .procedure second]
  exact ⟨by decide +kernel,
    (hcut [] first [between, .procedure second] rfl).2 ⟨text.toList, .vbnet⟩ (by decide +kernel)⟩

end Rule
end LineLint
