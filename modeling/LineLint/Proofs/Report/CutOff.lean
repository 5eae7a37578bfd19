import LineLint.Proofs.Block.Keywords
import LineLint.Proofs.Report.Terminators

/-! # Procedures that are cut off

A body that is never closed holds no terminator, from its header line to the last line
(`VisualBasic.procedureEnd?_of_open`), so all terminators of the text stand in front of
it.  The scanner does not look at them, but the rule for missing terminators counts them
along: it takes the whole text together.

So a procedure that is cut off is missed as long as the lines in front of it have no
terminators to spare (`missingEnd_of_open`).  A text that begins inside one procedure and
stops inside another has as many terminators as openers, and nothing is reported of it
(`missingEnd_of_begun_inside`).
-/
namespace LineLint

namespace Code

namespace VisualBasic

/-- **A procedure that is never closed has no terminator behind it**, of whatever kind. -/
theorem procedureEnd?_of_open {lines : List (List Char)} {block : Block}
    (hblock : block ∈ procedureBlocks lines) (hopen : block.closed = false) :
    ∃ front headerLine back kind header, lines = front ++ headerLine :: back ∧
      block.start = front.length + 1 ∧
      procedureHeader? headerLine = some (kind, header) ∧ header.bodiless = false ∧
      ∀ line ∈ headerLine :: back, procedureEnd? line = none := by
  have h := readsBy_procedureScanner.bounded hblock
  obtain ⟨headerLine, hline, hname⟩ := h.header
  have hdeclares : BlockKind.vbnetProcedure.Declares headerLine block.name :=
    (BlockKind.header?_eq_some_iff _ _ _).mp hname
  obtain ⟨kind, header, hheader, hbody, -⟩ := hdeclares
  obtain ⟨hlt, hget⟩ := List.getElem?_eq_some_iff.mp hline
  have hback : headerLine :: lines.drop (block.start - 1 + 1) = lines.drop (block.start - 1) := by
    rw [← hget, List.getElem_cons_drop]
  refine ⟨lines.take (block.start - 1), headerLine, lines.drop (block.start - 1 + 1), kind, header,
    ?_, ?_, hheader, hbody, ?_⟩
  · rw [hback, List.take_append_drop]
  · rw [List.length_take_of_le hlt.le, Nat.sub_add_cancel h.start_pos]
  · intro line hmem
    rw [hback] at hmem
    obtain ⟨index, hindex⟩ := List.mem_iff_getElem?.mp hmem
    rw [List.getElem?_drop] at hindex
    have hnever := (h.goes_on hopen).2 (block.start - 1 + index + 1)
    have hle : block.start ≤ block.start - 1 + index + 1 := by omega
    rw [mayStop_iff, and_iff_right hle] at hnever
    exact Option.not_isSome_iff_eq_none.mp fun hend => hnever ⟨line, hindex, hend⟩

end VisualBasic
end Code

namespace Rule

open Code.VisualBasic

/-- Number of lines that open a procedure of a kind. -/
def openers (kind : ProcedureKind) (lines : List (List Char)) : Nat :=
  (lines.map ProcedureLine.of).count (.opens kind)

/-- Number of lines that close a procedure of a kind. -/
def terminators (kind : ProcedureKind) (lines : List (List Char)) : Nat :=
  (lines.map ProcedureLine.of).count (.closes kind)

theorem openers_append (kind : ProcedureKind) (lines more : List (List Char)) :
    openers kind (lines ++ more) = openers kind lines + openers kind more := by
  rw [openers, List.map_append, List.count_append, openers, openers]

theorem terminators_append (kind : ProcedureKind) (lines more : List (List Char)) :
    terminators kind (lines ++ more) = terminators kind lines + terminators kind more := by
  rw [terminators, List.map_append, List.count_append, terminators, terminators]

theorem openers_pos {line : List Char} {kind : ProcedureKind} {header : Code.Header}
    (hheader : procedureHeader? line = some (kind, header)) (hbody : header.bodiless = false)
    (rest : List (List Char)) : 0 < openers kind (line :: rest) := by
  have hopens : ProcedureLine.of line = .opens kind := by
    simp [ProcedureLine.of, hheader, hbody]
  rw [openers, List.map_cons, hopens, List.count_cons_self]
  exact Nat.succ_pos _

/-- Lines none of which closes a procedure have no terminators. -/
theorem terminators_eq_zero {lines : List (List Char)}
    (h : ∀ line ∈ lines, procedureEnd? line = none) (kind : ProcedureKind) :
    terminators kind lines = 0 := by
  refine List.count_eq_zero.mpr ?_
  intro hmem
  obtain ⟨line, hline, hcloses⟩ := List.mem_map.mp hmem
  rw [ProcedureLine.of, h line hline] at hcloses
  split at hcloses
  · split at hcloses <;> cases hcloses
  · cases hcloses

theorem lacksEnd_iff (kind : ProcedureKind) (lines : List (List Char)) :
    lacksEnd kind lines = true ↔ terminators kind lines < openers kind lines :=
  decide_eq_true_iff

/-- The issue for a kind of procedures is reported if more of them are opened than closed. -/
theorem mem_missingEnd_iff (kind : ProcedureKind) (snippet : Snippet) :
    missingEndIssue kind ∈ missingEnd.check snippet ↔
      terminators kind snippet.lines < openers kind snippet.lines := by
  have hinjective : ∀ other,
      (missingEndIssue other).kind = (missingEndIssue kind).kind → other = kind := by
    intro other
    cases other <;> cases kind <;> decide
  have hall : kind ∈ [ProcedureKind.sub, ProcedureKind.function] := by cases kind <;> simp
  rw [← lacksEnd_iff]
  constructor
  · intro h
    obtain ⟨other, hother, hissue⟩ := List.mem_map.mp h
    obtain rfl := hinjective other (congrArg Issue.kind hissue)
    exact (List.mem_filter.mp hother).2
  · intro h
    exact List.mem_map_of_mem (List.mem_filter.mpr ⟨hall, h⟩)

/-- Something is reported if more procedures of some kind are opened than closed. -/
theorem missingEnd_ne_nil_iff (snippet : Snippet) :
    missingEnd.check snippet ≠ [] ↔
      ∃ kind, terminators kind snippet.lines < openers kind snippet.lines := by
  constructor
  · intro h
    obtain ⟨issue, hissue⟩ := List.exists_mem_of_ne_nil _ h
    obtain ⟨kind, -, rfl⟩ := List.mem_map.mp hissue
    exact ⟨kind, (mem_missingEnd_iff kind snippet).mp hissue⟩
  · rintro ⟨kind, h⟩
    exact List.ne_nil_of_mem ((mem_missingEnd_iff kind snippet).mpr h)

/-- **When a procedure that is cut off is missed.**  If the scanner finds a procedure that
never closes, no terminator stands from its header line on.  Its kind is reported exactly if
fewer terminators of that kind stand in front of it than the whole text has openers, and
anything is reported exactly if this holds of one of the two kinds.  It does whenever the
lines in front, both kinds taken together, do not close more procedures than they open. -/
theorem missingEnd_of_open {lines : List (List Char)} {block : Code.Block}
    (hblock : block ∈ procedureBlocks lines) (hopen : block.closed = false) :
    let front := lines.take (block.start - 1)
    ∃ headerLine kind header, lines[block.start - 1]? = some headerLine ∧
      procedureHeader? headerLine = some (kind, header) ∧ header.bodiless = false ∧
      (∀ line ∈ lines.drop (block.start - 1), procedureEnd? line = none) ∧
      ∀ snippet : Snippet, snippet.lines = lines →
        (missingEndIssue kind ∈ missingEnd.check snippet ↔
          terminators kind front < openers kind lines) ∧
        (missingEnd.check snippet ≠ [] ↔
          ∃ other, terminators other front < openers other lines) ∧
        (terminators .sub front + terminators .function front ≤
            openers .sub front + openers .function front →
          missingEnd.check snippet ≠ []) := by
  obtain ⟨front, headerLine, back, kind, header, rfl, hstart, hheader, hbody, hnone⟩ :=
    procedureEnd?_of_open hblock hopen
  rw [hstart, Nat.add_sub_cancel, List.take_left, List.drop_left]
  refine ⟨headerLine, kind, header, by simp, hheader, hbody, hnone, ?_⟩
  intro snippet hlines
  have hterminators : ∀ other,
      terminators other (front ++ headerLine :: back) = terminators other front := by
    intro other
    rw [terminators_append, terminators_eq_zero hnone, Nat.add_zero]
  have hsome : missingEnd.check snippet ≠ [] ↔ ∃ other,
      terminators other front < openers other (front ++ headerLine :: back) := by
    simp only [missingEnd_ne_nil_iff, hlines, hterminators]
  refine ⟨?_, hsome, ?_⟩
  · rw [mem_missingEnd_iff, hlines, hterminators]
  · intro hle
    have hpos := openers_pos hheader hbody back
    have hopeners := fun other => openers_append other front (headerLine :: back)
    rw [hsome]
    -- the header line is one opener more than those in front
    by_contra hall
    have hsub := not_exists.mp hall .sub
    have hfunction := not_exists.mp hall .function
    rw [hopeners] at hsub hfunction
    cases kind <;> omega

/-- A `Sub` that is cut off behind the rest of a `Function`, with another `Function` in it. -/
theorem missingEnd_of_open_behind_rest :
    let snippet : Snippet := ⟨"End Function\nSub A()\n  Function B()".toList, .vbnet⟩
    procedureBlocks snippet.lines = [⟨['A'], 2, 3, false, 2, 0⟩] ∧
      terminators .sub (snippet.lines.take 1) = 0 ∧ openers .sub snippet.lines = 1 ∧
      missingEnd.check snippet ≠ [] := by
  intro snippet
  have hblocks : procedureBlocks snippet.lines = [⟨['A'], 2, 3, false, 2, 0⟩] := by
    decide
  have hterminators : terminators .sub (snippet.lines.take 1) = 0 := by decide
  have hopeners : openers .sub snippet.lines = 1 := by decide
  obtain ⟨headerLine, kind, header, -, -, -, -, hreported⟩ :=
    missingEnd_of_open (hblocks ▸ List.mem_singleton_self _) rfl
  obtain ⟨-, hsome, -⟩ := hreported snippet rfl
  refine ⟨hblocks, hterminators, hopeners, hsome.mpr ⟨.sub, ?_⟩⟩
  rw [hopeners]
  exact Nat.lt_one_iff.mpr hterminators

/-- **A text that begins inside a procedure may hide that it stops inside another one**: the
terminator of the first makes up for the one that is missing. -/
theorem missingEnd_of_begun_inside :
    let snippet : Snippet := ⟨"End Sub\nSub A()".toList, .vbnet⟩
    (∃ block ∈ procedureBlocks snippet.lines, block.start = 2 ∧ block.closed = false) ∧
      missingEnd.check snippet = [] := by
  decide

end Rule
end LineLint
