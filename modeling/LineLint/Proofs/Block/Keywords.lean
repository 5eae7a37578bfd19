import LineLint.Proofs.Block.Boundary
import LineLint.Proofs.Block.Depth
import LineLint.Proofs.Block.Procedures
import LineLint.Proofs.Pattern.Choices
import LineLint.Proofs.Pattern.Marks

/-! # Lines that open and close procedures

Headers and terminators are read off the whole line, and what a line opens and closes off the
line without its comment, unless the line is nothing but a comment.  The two agree: no
pattern that decides between them gets past the marker of a comment
(`isSome_bodyHeader?_stripComment`, `blockEndPattern_stripComment`), and none begins like
a comment line (`isCommentLine_eq_false`).  So a header line opens one block, a terminator closes
one, and no line is both.

Hence the nesting of a procedure is bounded by the number of its lines, and a closed one ends
with the first terminator behind its header line.
-/
namespace LineLint
namespace Code

/-- What is cut off a line begins with the marker, if it is anything. -/
theorem exists_append_cutComment (marker : List Char) (inString : Bool) (line : List Char) :
    ∃ tail, line = cutComment marker inString line ++ tail ∧ (tail = [] ∨ marker <+: tail) := by
  fun_induction cutComment marker inString line with
  | case1 => exact ⟨[], rfl, Or.inl rfl⟩
  | case2 inString rest ih =>
    obtain ⟨tail, hline, htail⟩ := ih
    exact ⟨tail, congrArg _ hline, htail⟩
  | case3 inString c rest _ hmarker =>
    have hbegins := (Bool.and_eq_true_iff.mp hmarker).2
    exact ⟨c :: rest, rfl, Or.inr (List.isPrefixOf_iff_prefix.mp hbegins)⟩
  | case4 inString c rest _ _ ih =>
    obtain ⟨tail, hline, htail⟩ := ih
    exact ⟨tail, congrArg _ hline, htail⟩

namespace VisualBasic

open Pattern

/-! ## Lines without their comments -/

/-- A comment is set off from the line by its marker. -/
theorem exists_setOff (line : List Char) :
    ∃ tail, line = stripComment line commentMarker ++ tail ∧ Text.SetOff '\'' tail := by
  obtain ⟨tail, hline, htail⟩ := exists_append_cutComment commentMarker false line
  refine ⟨tail, hline, ?_, by decide⟩
  rcases htail with rfl | ⟨rest, rfl⟩
  · simp
  · simp [commentMarker]

/-- The part of a procedure header in front of its parameter list. -/
def procedureOpening : Pattern :=
  textStart ++ spaces ++ named .modifiers (repeated (words procedureModifiers ++ gap)) ++
    named .keyword (words ["Sub", "Function"]) ++ gap ++ named .name identifier ++ spaces

/-- Whether a line opens a procedure that has a body is seen in front of the parameter list. -/
theorem isSome_bodyHeader? (line : List Char) :
    (bodyHeader? line).isSome =
      ((procedureOpening.find? line).map (·.part .modifiers)).any fun modifiers =>
        !Text.contains (Text.asciiLower modifiers) "mustoverride".toList := by
  have hparts : (procedurePattern.find? line).map (·.part .modifiers) =
      (procedureOpening.find? line).map (·.part .modifiers) := by
    rw [find?_of_isAnchored (by decide), find?_of_isAnchored (by decide)]
    exact at?_optional (by decide) ⟨[], line⟩
  rw [← hparts, bodyHeader?, procedureHeader?]
  cases procedurePattern.find? line with
  | none => rfl
  | some m =>
    simp only [Option.map_some, Option.any_some]
    split <;> simp_all

/-- **The comment does not matter for headers.** -/
theorem isSome_bodyHeader?_stripComment (line : List Char) :
    (bodyHeader? (stripComment line commentMarker)).isSome = (bodyHeader? line).isSome := by
  obtain ⟨tail, hline, htail⟩ := exists_setOff line
  rw [isSome_bodyHeader?, isSome_bodyHeader?]
  conv_rhs => rw [hline]
  rw [find?_append_of_shuns (by decide) (by decide) htail, Option.map_map]
  simp only [Function.comp_def, Match.part_extend]

/-- The comment does not matter for ends of blocks. -/
theorem blockEndPattern_stripComment (line : List Char) :
    blockEndPattern.occursIn (stripComment line commentMarker) = blockEndPattern.occursIn line := by
  obtain ⟨tail, hline, htail⟩ := exists_setOff line
  conv_rhs => rw [hline]
  rw [occursIn_append_of_shuns (by decide) (by decide) htail]

section
variable {p : Pattern} (hanchored : p.isAnchored = true) (hstay : p.canStay = false)
  (hmarker : p.begins '\'' = false) (hsmall : p.begins 'r' = false)
  (hcapital : p.begins 'R' = false)
include hanchored hstay hmarker hsmall hcapital

/-- A line is no comment if an anchored pattern that does not begin like one occurs in its first
part. -/
theorem isCommentLine_append_eq_false {code : List Char} (h : p.occursIn code = true)
    (tail : List Char) : isCommentLine (code ++ tail) = false := by
  rw [← (indentBlind_occursIn_of_isAnchored hanchored).trimStart] at h
  obtain ⟨c, rest, hcode, hbegins⟩ := exists_begins_of_isAnchored hanchored hstay h
  have htrim : Text.trimStart (code ++ tail) = c :: (rest ++ tail) := by
    rw [Text.trimStart, List.dropWhile_append, ← Text.trimStart, hcode]
    rfl
  have hc : '\'' ≠ c := by
    rintro rfl
    exact Bool.false_ne_true (hmarker.symm.trans hbegins)
  have hlower : 'r' ≠ c.toLower := by
    intro heq
    rcases Text.eq_or_eq_toUpper heq.symm with rfl | rfl
    · exact Bool.false_ne_true (hsmall.symm.trans hbegins)
    · exact Bool.false_ne_true (hcapital.symm.trans hbegins)
  have hrem : "rem ".toList = ['r', 'e', 'm', ' '] := rfl
  simp [isCommentLine, commentMarker, htrim, hrem, List.isPrefixOf, hc, hlower]

/-- A line where an anchored pattern occurs that does not begin like a comment is no comment. -/
theorem isCommentLine_eq_false {line : List Char} (h : p.occursIn line = true) :
    isCommentLine line = false := by
  have hline := isCommentLine_append_eq_false hanchored hstay hmarker hsmall hcapital h []
  rwa [List.append_nil] at hline

end

/-! ## What a line opens and closes -/

theorem occursIn_of_procedureHeader? {line : List Char} {found : ProcedureKind × Header}
    (h : procedureHeader? line = some found) : procedurePattern.occursIn line = true := by
  obtain ⟨m, hm, -⟩ := Option.map_eq_some_iff.mp h
  rw [occursIn, hm, Option.isSome_some]

theorem occursIn_of_bodyHeader? {line : List Char} (h : (bodyHeader? line).isSome = true) :
    procedurePattern.occursIn line = true := by
  cases hfound : procedureHeader? line with
  | none => simp [bodyHeader?, hfound] at h
  | some found => exact occursIn_of_procedureHeader? hfound

/-- A line that closes a procedure closes a block. -/
theorem blockEndPattern_of_procedureEndPattern {line : List Char}
    (h : procedureEndPattern.occursIn line = true) : blockEndPattern.occursIn line = true := by
  rw [occursIn, find?_of_isAnchored (by decide), at?_isSome_iff] at h ⊢
  obtain ⟨stop, hstop⟩ := h
  obtain ⟨named, hnamed, hedge⟩ := List.mem_flatMap.mp hstop
  obtain ⟨front, hfront, hkeyword⟩ := List.mem_flatMap.mp hnamed
  obtain ⟨behind, hbehind, rfl⟩ := List.mem_map.mp hkeyword
  -- the keyword is one of the five, and its edge is seen from the place alone
  have hsubset : ["Sub", "Function"] ⊆ ["If", "Sub", "Function", "Class", "Module"] := by decide
  have hmore := reach_words_subset hsubset front hbehind
  have hplace : behind.place.atEdge = true := by
    by_contra hno
    simp [reach, hno] at hedge
  refine ⟨behind, List.mem_flatMap.mpr ⟨behind, List.mem_flatMap.mpr ⟨front, hfront, hmore⟩, ?_⟩⟩
  simp [reach, hplace]

/-- **A line that opens a procedure opens one block and closes none.** -/
theorem delta_of_bodyHeader? {line : List Char} (h : (bodyHeader? line).isSome = true) :
    delta line = ⟨1, 0⟩ := by
  have hcomment : isCommentLine line = false :=
    isCommentLine_eq_false (by decide) (by decide) (by decide) (by decide) (by decide)
      (occursIn_of_bodyHeader? h)
  rw [← isSome_bodyHeader?_stripComment] at h
  have hend : blockEndPattern.occursIn (stripComment line commentMarker) = false := by
    cases hend : blockEndPattern.occursIn (stripComment line commentMarker) with
    | false => rfl
    | true =>
      have hnone := procedurePattern_of_end (by decide) hend
      exact absurd (hnone.symm.trans (occursIn_of_bodyHeader? h)) Bool.false_ne_true
  simp [delta, hcomment, hend, opensBlock, h]

/-- **A line that closes a procedure closes one block and opens none.** -/
theorem delta_of_procedureEnd? {line : List Char} (h : (procedureEnd? line).isSome = true) :
    delta line = ⟨0, 1⟩ := by
  have hoccurs : procedureEndPattern.occursIn line = true := by
    rwa [procedureEnd?, Option.isSome_map] at h
  have hcomment : isCommentLine line = false :=
    isCommentLine_eq_false (by decide) (by decide) (by decide) (by decide) (by decide) hoccurs
  have hend := blockEndPattern_of_procedureEndPattern hoccurs
  rw [← blockEndPattern_stripComment] at hend
  simp [delta, hcomment, hend]

/-- No line opens more than one block. -/
theorem opens_delta_le (line : List Char) : (delta line).opens ≤ 1 := by
  simp only [delta]
  split_ifs <;> simp

theorem procedureEnd?_of_bodyHeader? {line : List Char} (h : (bodyHeader? line).isSome = true) :
    procedureEnd? line = none := by
  cases hend : procedureEnd? line with
  | none => rfl
  | some kind =>
    rw [bodyHeader?, procedureHeader?_of_procedureEnd? hend] at h
    cases h

/-! ## Procedures -/

/-- Whether line `number` closes a procedure. -/
def ClosesAt (lines : List (List Char)) (number : Nat) : Prop :=
  ∃ line, lines[number - 1]? = some line ∧ (procedureEnd? line).isSome = true

/-- Lines open no more blocks than there are lines. -/
theorem sum_opens_le (lines : List (List Char)) :
    ((lines.map delta).map (·.opens)).sum ≤ lines.length := by
  induction lines with
  | nil => exact Nat.le_refl 0
  | cons line lines ih =>
    have hline := opens_delta_le line
    simp only [List.map_cons, List.sum_cons, List.length_cons]
    omega

theorem readsBy_procedureScanner : procedureScanner.ReadsBy procedureReader :=
  ⟨fun _ => rfl, fun _ => rfl⟩

theorem behind_procedureReader (lines : List (List Char)) :
    procedureReader.behind procedureReader.start lines = DepthState.behind (lines.map delta) := by
  rw [DepthState.behind, List.foldl_map]
  rfl

/-- A procedure may stop with its terminators. -/
theorem mayStop_iff {lines : List (List Char)} {first number : Nat} :
    procedureReader.MayStop lines first number ↔ first ≤ number ∧ ClosesAt lines number :=
  BodyReader.mayStop_iff_endsWith fun _ => rfl

section
variable {lines : List (List Char)} {block : Block}
  (h : procedureScanner.Bounded procedureReader lines block)
include h

theorem maxDepth_eq : block.maxDepth =
    (DepthState.behind ((stretch lines block.start block.stop).map delta)).maxDepth := by
  rw [h.maxDepth_eq (·.maxDepth) fun _ => rfl, behind_procedureReader]

/-- The header line of a procedure has a body and closes none. -/
theorem exists_headerLine :
    ∃ line, lines[block.start - 1]? = some line ∧ (bodyHeader? line).isSome = true := by
  obtain ⟨line, hline, hname⟩ := h.header
  refine ⟨line, hline, ?_⟩
  have hsome : ((bodyHeader? line).map (·.name)).isSome = true := Option.isSome_of_mem hname
  rwa [Option.isSome_map] at hsome

/-- The header line counts. -/
theorem one_le_maxDepth : 1 ≤ block.maxDepth := by
  obtain ⟨line, hline, hheader⟩ := exists_headerLine h
  have hfirst : ((stretch lines block.start block.stop).map delta)[block.start - block.start]? =
      some (delta line) := by
    rw [List.getElem?_map, getElem?_stretch lines h.start_pos (Nat.le_refl _) h.start_le, hline]
    rfl
  have hopens := DepthState.opens_le_maxDepth hfirst
  rwa [← maxDepth_eq h, delta_of_bodyHeader? hheader] at hopens

/-- Each line adds one level at most. -/
theorem maxDepth_add_start_le : block.maxDepth + block.start ≤ block.stop + 1 := by
  have hmax := (DepthState.maxDepth_behind_le ((stretch lines block.start block.stop).map delta)).2
  have hsum := sum_opens_le (stretch lines block.start block.stop)
  have hlength := length_stretch_le lines block.start block.stop
  have hle := h.start_le
  rw [← maxDepth_eq h] at hmax
  omega

/-- A closed procedure stops with the first terminator behind its header line. -/
theorem isLeast_stop (hclosed : block.closed = true) :
    IsLeast {number | block.start < number ∧ ClosesAt lines number} block.stop := by
  obtain ⟨header, hheader, hbody⟩ := exists_headerLine h
  have hne : ¬ ClosesAt lines block.start := by
    rintro ⟨line, hline, hend⟩
    obtain rfl : header = line := Option.some_inj.mp (hheader.symm.trans hline)
    rw [procedureEnd?_of_bodyHeader? hbody] at hend
    cases hend
  obtain ⟨hmay, hfirst⟩ := h.stops hclosed
  obtain ⟨hle, hcloses⟩ := mayStop_iff.mp hmay
  refine ⟨⟨Nat.lt_of_le_of_ne hle ?_, hcloses⟩, fun number ⟨hlt, hother⟩ => ?_⟩
  · intro heq
    exact hne (heq ▸ hcloses)
  · exact hfirst (mayStop_iff.mpr ⟨hlt.le, hother⟩)

/-- The terminator of a closed procedure adds no level. -/
theorem maxDepth_add_start_le_of_closed (hclosed : block.closed = true) :
    block.maxDepth + block.start ≤ block.stop := by
  obtain ⟨⟨hlt, last, hlast, hend⟩, -⟩ := isLeast_stop h hclosed
  have hmax := (DepthState.maxDepth_behind_le ((stretch lines block.start block.stop).map delta)).2
  have hsum := sum_opens_le (stretch lines block.start (block.stop - 1))
  have hlength := length_stretch_le lines block.start (block.stop - 1)
  rw [← maxDepth_eq h, stretch_succ h.start_pos h.start_le hlast] at hmax
  simp only [List.map_append, List.sum_append, List.map_singleton, List.sum_singleton,
    delta_of_procedureEnd? hend] at hmax
  omega

end

/-- **Lines are read the same way for what they declare and for what they nest.**  A header line
of a procedure with a body opens one block and is no terminator, and a terminator closes one and is
no header line.  So the largest depth of a procedure is positive and no more than the
number of its lines; if it is closed, it stops with the first terminator behind its header
line, which adds nothing to the depth. -/
theorem procedureLines_coherent :
    (∀ line kind header, procedureHeader? line = some (kind, header) → header.bodiless = false →
      delta line = ⟨1, 0⟩ ∧ procedureEnd? line = none) ∧
    (∀ line kind, procedureEnd? line = some kind →
      delta line = ⟨0, 1⟩ ∧ procedureHeader? line = none) ∧
    ∀ lines, ∀ block ∈ procedureBlocks lines,
      1 ≤ block.maxDepth ∧ block.maxDepth + block.start ≤ block.stop + 1 ∧
      (block.closed = true →
        block.start < block.stop ∧ block.maxDepth + block.start ≤ block.stop ∧
        IsLeast {number | block.start < number ∧ ClosesAt lines number} block.stop) := by
  refine ⟨?_, ?_, ?_⟩
  · intro line kind header hheader hbody
    have hsome : (bodyHeader? line).isSome = true := by simp [bodyHeader?, hheader, hbody]
    exact ⟨delta_of_bodyHeader? hsome, procedureEnd?_of_bodyHeader? hsome⟩
  · intro line kind hend
    exact ⟨delta_of_procedureEnd? (Option.isSome_of_mem hend),
      procedureHeader?_of_procedureEnd? hend⟩
  · intro lines block hmem
    have h := readsBy_procedureScanner.bounded hmem
    refine ⟨one_le_maxDepth h, maxDepth_add_start_le h, fun hclosed => ?_⟩
    have hstop := isLeast_stop h hclosed
    exact ⟨hstop.1.1, maxDepth_add_start_le_of_closed h hclosed, hstop⟩

/-- Header and terminator with comments right behind them, one with a quote in it. -/
theorem procedureLines_coherent_beside_comments :
    let header := "  Public Sub A(x) ' \"".toList
    let terminator := "end sub'".toList
    let lines := [header, "If x Then".toList, "End If".toList, terminator]
    let block : Block := ⟨['A'], 1, 4, true, 2, 0⟩
    procedureHeader? header = some (.sub, ⟨['A'], some ['x'], false⟩) ∧
      delta header = ⟨1, 0⟩ ∧ procedureEnd? header = none ∧
    procedureEnd? terminator = some .sub ∧
      delta terminator = ⟨0, 1⟩ ∧ procedureHeader? terminator = none ∧
    block ∈ procedureBlocks lines ∧ block.maxDepth + block.start ≤ block.stop ∧
      IsLeast {number | block.start < number ∧ ClosesAt lines number} block.stop := by
  intro header terminator lines block
  have hheader : procedureHeader? header = some (.sub, ⟨['A'], some ['x'], false⟩) := by decide
  have hend : procedureEnd? terminator = some .sub := by decide
  have hmem : block ∈ procedureBlocks lines := by decide
  obtain ⟨hopens, hcloses, hblocks⟩ := procedureLines_coherent
  obtain ⟨hdelta, hnone⟩ := hopens header .sub _ hheader rfl
  obtain ⟨hdelta', hnone'⟩ := hcloses terminator .sub hend
  obtain ⟨-, -, hclosed⟩ := hblocks lines block hmem
  obtain ⟨-, hdepth, hstop⟩ := hclosed rfl
  exact ⟨hheader, hdelta, hnone, hend, hdelta', hnone', hmem, hdepth, hstop⟩

end VisualBasic
end Code
end LineLint
