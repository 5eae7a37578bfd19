import LineLint.Proofs.Layout.Lines
import LineLint.Rule.Line
import LineLint.Rule.Structure

/-! # Two texts with a line feed between them

A text that does not end in a carriage return can be joined to another by a line
feed: the lines of both are the lines of the first and then those of the second
(`Text.lines_append_lf`).  A carriage return would take the line feed as a part of
its own ending.

A rule is line-local if what it finds on a line depends on that line alone, apart
from the number that it gives to the line (`Rule.LineLocal`).  Such a rule finds
in the joined text what it finds in the first, and then what it finds in the second,
moved on by the number of lines of the first (`Rule.LineLocal.append_lf`).
Seven rules are line-local, whatever their thresholds.
-/
namespace LineLint
namespace Text

theorem getLast?_ne_of_cons {c d : Char} {rest : List Char} (h : (c :: rest).getLast? ≠ some d) :
    rest.getLast? ≠ some d := by
  intro hrest
  rw [List.getLast?_cons, hrest] at h
  exact h rfl

/-- **The lines of two texts with a line feed between them** are the lines of both. -/
theorem lines_append_lf {a : List Char} (ha : a.getLast? ≠ some '\r') (b : List Char) :
    lines (a ++ '\n' :: b) = lines a ++ lines b := by
  fun_induction rows a with
  | case1 => exact lines_lf b
  | case2 rest ih =>
    have hrest := getLast?_ne_of_cons (getLast?_ne_of_cons ha)
    rw [List.cons_append, List.cons_append, lines_crlf, ih hrest, lines_crlf, List.cons_append]
  | case3 rest hlone ih =>
    -- something else than a line feed follows the carriage return, in both texts
    have hlone' : ∀ more, rest ++ '\n' :: b ≠ '\n' :: more := by
      intro more hmore
      cases rest with
      | nil => exact ha rfl
      | cons d rest => exact hlone rest (by rw [(List.cons_eq_cons.mp hmore).1])
    rw [List.cons_append, lines_cr hlone', ih (getLast?_ne_of_cons ha), lines_cr hlone,
      List.cons_append]
  | case4 rest ih =>
    rw [List.cons_append, lines_lf, ih (getLast?_ne_of_cons ha), lines_lf, List.cons_append]
  | case5 c rest _ hr hn row more hrows ih =>
    obtain ⟨line, others, hlines, hcons⟩ := lines_cons_of_ne hr hn rest
    obtain ⟨line', others', hlines', hcons'⟩ := lines_cons_of_ne hr hn (rest ++ '\n' :: b)
    rw [ih (getLast?_ne_of_cons ha), hlines, List.cons_append] at hlines'
    obtain ⟨rfl, rfl⟩ := List.cons_eq_cons.mp hlines'
    rw [List.cons_append, hcons', hcons, List.cons_append]
  | case6 c rest _ _ _ hrows => exact absurd hrows (rows_ne_nil rest)

end Text

/-- The lines of the joined text have the numbers that they had, those of the second text moved
on by the number of lines of the first. -/
theorem Snippet.numberedLines_append_lf {a : List Char} (ha : a.getLast? ≠ some '\r')
    (b : List Char) (dialect : Dialect) :
    (Snippet.mk (a ++ '\n' :: b) dialect).numberedLines =
      (Snippet.mk a dialect).numberedLines ++
        (Snippet.mk b dialect).numberedLines.map (Prod.map id (· + (Text.lines a).length)) := by
  simp only [numberedLines, lines, Text.lines_append_lf ha]
  rw [List.zipIdx_append, List.map_snd_add_zipIdx_eq_zipIdx, Nat.add_comm]

/-- The issue `distance` lines further down. -/
def Issue.shift (distance : Nat) (issue : Issue) : Issue :=
  { issue with line := issue.line.map (· + distance) }

namespace Rule

/-- Whether a check finds on each line what the line and its number say, the number only
deciding on which line the issue is. -/
def LineLocal (check : Snippet → List Issue) : Prop :=
  ∃ find? : Dialect → Nat → List Char → Option Issue,
    (∀ snippet, check snippet =
      snippet.numberedLines.filterMap fun numbered => find? snippet.dialect numbered.2 numbered.1) ∧
    ∀ dialect number distance line,
      find? dialect (number + distance) line =
        (find? dialect number line).map (Issue.shift distance)

/-- **A line-local check finds in a joined text what it finds in its two parts.** -/
theorem LineLocal.append_lf {check : Snippet → List Issue} (h : LineLocal check) {a : List Char}
    (ha : a.getLast? ≠ some '\r') (b : List Char) (dialect : Dialect) :
    check ⟨a ++ '\n' :: b, dialect⟩ =
      check ⟨a, dialect⟩ ++ (check ⟨b, dialect⟩).map (Issue.shift (Text.lines a).length) := by
  obtain ⟨find?, hcheck, hshift⟩ := h
  rw [hcheck, hcheck, hcheck, Snippet.numberedLines_append_lf ha, List.filterMap_append,
    List.filterMap_map, List.map_filterMap]
  refine congrArg (_ ++ List.filterMap · _) ?_
  funext numbered
  exact hshift dialect numbered.2 _ numbered.1

/-- In a rule for single lines, the number of a line is only the place of the issue. -/
theorem lineLocal_lineCheck (check : LineCheck) : LineLocal check.rule.check := by
  refine ⟨fun _ number line => if check.isBad line then some (check.issue number line) else none,
    ?_, ?_⟩
  · intro snippet
    simp only [LineCheck.rule, checkLines]
    rw [← List.filterMap_eq_map, List.filterMap_filter]
    rfl
  · intro _ number distance line
    by_cases hbad : check.isBad line = true <;> simp [hbad, LineCheck.issue, Issue.shift]

theorem lineLocal_longParameterList (maxParams : Nat) :
    LineLocal (longParameterList maxParams).check := by
  refine ⟨longParamsIssue? maxParams, fun _ => rfl, ?_⟩
  intro dialect number distance line
  rw [longParamsIssue?, longParamsIssue?]
  cases callableHeader? dialect line with
  | none => rfl
  | some header =>
    simp only
    cases header.paramCount with
    | none => rfl
    | some count =>
      simp only
      by_cases hmany : maxParams < count
      · rw [if_pos hmany, if_pos hmany]
        rfl
      · rw [if_neg hmany, if_neg hmany]
        rfl

/-- **Line-local rules are homomorphisms.**  With a line feed between two texts, the first of
which does not end in a carriage return, seven rules find what they find in the first, and
then what they find in the second, moved on by the number of lines of the first. -/
theorem check_append_of_line_rules {a : List Char} (ha : a.getLast? ≠ some '\r')
    (b : List Char) (dialect : Dialect) (maxLength maxParams : Nat) (severity : Severity) :
    ∀ rule ∈ [longLine maxLength severity, todo, goto, selectStar, missingWhere, noLock,
        longParameterList maxParams],
      rule.check ⟨a ++ '\n' :: b, dialect⟩ =
        rule.check ⟨a, dialect⟩ ++
          (rule.check ⟨b, dialect⟩).map (Issue.shift (Text.lines a).length) := by
  have hlocal : ∀ rule ∈ [longLine maxLength severity, todo, goto, selectStar, missingWhere,
      noLock, longParameterList maxParams], LineLocal rule.check := by
    simp only [List.forall_mem_cons, List.not_mem_nil, false_imp_iff, implies_true, and_true]
    exact ⟨lineLocal_lineCheck _, lineLocal_lineCheck _, lineLocal_lineCheck _,
      lineLocal_lineCheck _, lineLocal_lineCheck _, lineLocal_lineCheck _,
      lineLocal_longParameterList maxParams⟩
  intro rule hrule
  exact (hlocal rule hrule).append_lf ha b dialect

/-- A mark on the last line of the first text, which an own ending leaves empty behind it, and
one on the last line of the second. -/
theorem check_append_of_line_rules_todo :
    let a := "// TODO: a\r\n".toList
    let b := "f();\rg(); // todo".toList
    a.getLast? ≠ some '\r' ∧
      todo.check ⟨a ++ '\n' :: b, .csharp⟩ =
        todo.check ⟨a, .csharp⟩ ++ (todo.check ⟨b, .csharp⟩).map (Issue.shift 2) ∧
      (todo.check ⟨a ++ '\n' :: b, .csharp⟩).map Issue.line = [some 1, some 4] := by
  intro a b
  have ha : a.getLast? ≠ some '\r' := by decide +kernel
  have htodo : todo ∈ [longLine 0 .info, todo, goto, selectStar, missingWhere, noLock,
      longParameterList 0] := List.mem_cons_of_mem _ List.mem_cons_self
  have hcheck := check_append_of_line_rules ha b .csharp 0 0 .info todo htodo
  refine ⟨ha, hcheck, ?_⟩
  rw [hcheck]
  decide +kernel

end Rule
end LineLint
