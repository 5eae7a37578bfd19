import LineLint.CommandLine.Display
import LineLint.Proofs.Review.Locality
import LineLint.Proofs.Sentence.Form
import LineLint.Proofs.Unbroken.Rules

/-!
# One line for each issue

No line ends inside the strings of a report (`Reviewer.isUnbroken_review`): the
issues of the catalog are unbroken, a severity that is set for a rule changes no
string, and the summary is a sentence made of an unbroken text.  That last point
needs a bound on a pattern: a table of T-SQL is looked for in the whole text, line
endings included, but its name is made of letters, digits and four more characters.

So each issue takes one row of the compact form, and nothing else stands there
(`Reviewer.review_on_lines`).
-/
namespace LineLint

open Text

/-! ## Sentences -/

namespace Sentence

theorem isUnbroken_capitalize {text : List Char} (h : IsUnbroken text) :
    IsUnbroken (capitalize text) := by
  cases text with
  | nil => exact h
  | cons c rest =>
    obtain ⟨⟨hlf, hcr⟩, hrest⟩ := isUnbroken_cons_iff.mp h
    -- no character becomes white space in capitals
    have hupper : IsUnbroken (upperChar c) :=
      ⟨fun hmem => hlf (eq_of_mem_upperChar hmem (by decide)).symm,
        fun hmem => hcr (eq_of_mem_upperChar hmem (by decide)).symm⟩
    exact isUnbroken_append_iff.mpr ⟨hupper, hrest⟩

theorem isUnbroken_terminate {text : List Char} (h : IsUnbroken text) :
    IsUnbroken (terminate text) := by
  rw [terminate]
  split
  · exact h
  · exact isUnbroken_append_iff.mpr ⟨h, by decide⟩

theorem isUnbroken_shorten {text : List Char} (h : IsUnbroken text) :
    IsUnbroken (shorten text) := by
  by_cases hlength : 120 < text.length
  · rw [shorten_of_lt hlength]
    exact isUnbroken_append_iff.mpr
      ⟨h.of_subset (List.IsPrefix.subset <| cut_prefix text), by decide⟩
  · rwa [shorten_of_le (Nat.le_of_not_lt hlength)]

theorem trim_subset (text : List Char) : trim text ⊆ text :=
  List.Subset.trans (List.rdropWhile_prefix isSpace (trimStart text)).subset
    (List.dropWhile_suffix isSpace).subset

/-- No line ends inside a sentence if none ends inside the text it is made of. -/
theorem isUnbroken_ofText {text : List Char} (h : IsUnbroken text) :
    IsUnbroken (ofText text) := by
  have htrim := h.of_subset (trim_subset text)
  rw [ofText]
  split
  · decide
  · next c rest heq =>
    rw [heq] at htrim
    exact isUnbroken_shorten (isUnbroken_terminate (isUnbroken_capitalize htrim))

end Sentence

/-! ## Summaries -/

namespace Pattern

theorem namesWithin_word (allowed : Part → Char → Prop) (keyword : String) :
    (word keyword).NamesWithin allowed := by
  refine of_sequence trivial (fun p q hp hq => ⟨hp, hq⟩) fun p hp => ?_
  obtain ⟨letter, -, rfl⟩ := List.mem_map.mp hp
  trivial

end Pattern

namespace Intent

open Pattern

theorem isUnbroken_tableBehind (keyword : String) (text : List Char) :
    IsUnbroken (tableBehind keyword text) := by
  -- a table may stand on another line than its keyword, but its name does not go on behind a line
  have hpattern : (tablePattern keyword).NamesWithin fun _ c => c ≠ '\n' ∧ c ≠ '\r' := by
    have hclass (c : Char)
        (hc : (isLetter c || c.isDigit || "[]_.".toList.contains c) = true) :
        c ≠ '\n' ∧ c ≠ '\r' := by
      refine ⟨?_, ?_⟩ <;>
        · rintro rfl
          revert hc
          decide
    exact ⟨⟨⟨trivial, namesWithin_word _ keyword⟩, trivial, trivial⟩, ⟨hclass, hclass⟩, trivial,
      trivial⟩
  rw [tableBehind]
  split
  · next m hm =>
    have hname : IsUnbroken (m.part .name) :=
      ⟨fun hc => ((found_of_find? hm).mem_part hpattern hc).2.1 rfl,
        fun hc => ((found_of_find? hm).mem_part hpattern hc).2.2 rfl⟩
    dsimp only
    split
    · decide
    · exact hname.of_subset (List.filter_subset_self _)
  · decide

theorem isUnbroken_aboutTable {front : String} (hfront : IsUnbroken front.toList)
    (keyword : String) (text : List Char) : IsUnbroken (aboutTable front keyword text) :=
  isUnbroken_append_iff.mpr
    ⟨isUnbroken_append_iff.mpr ⟨hfront, isUnbroken_tableBehind keyword text⟩, by decide⟩

theorem isUnbroken_ofSql (text : List Char) : IsUnbroken (ofSql text) := by
  simp only [ofSql]
  split
  · exact isUnbroken_aboutTable (isUnbroken_ofList (by decide)) _ _
  · split
    · exact isUnbroken_aboutTable (isUnbroken_ofList (by decide)) _ _
    · split
      · exact isUnbroken_aboutTable (isUnbroken_ofList (by decide)) _ _
      · split
        · exact isUnbroken_aboutTable (isUnbroken_ofList (by decide)) _ _
        · split <;> exact isUnbroken_ofList (by decide)

theorem isUnbroken_ofName (name : List Char) : IsUnbroken (ofName name).toList := by
  have hverbs : ∀ entry ∈ verbs, IsUnbroken entry.2.toList := by
    simp only [verbs, List.forall_mem_cons, List.not_mem_nil, false_imp_iff, implies_true,
      and_true]
    and_intros <;> exact isUnbroken_ofList (by decide)
  simp only [ofName]
  split
  · next entry hentry => exact hverbs _ (List.mem_of_find?_eq_some hentry)
  · decide

theorem isUnbroken_ofCode (snippet : Snippet) : IsUnbroken (ofCode snippet).toList := by
  rw [ofCode]
  split
  · decide
  · split
    · exact isUnbroken_ofName _
    · decide

/-- No line ends inside what a snippet is for. -/
theorem isUnbroken_describe (snippet : Snippet) : IsUnbroken (describe snippet) := by
  rw [describe]
  split
  · decide
  · split
    · exact isUnbroken_ofSql _
    · exact isUnbroken_ofCode snippet

end Intent

/-! ## Reports -/

/-- Whether no line ends inside the strings of a report. -/
structure Report.IsUnbroken (report : Report) : Prop where
  summary : Text.IsUnbroken report.summary.toList
  issues : ∀ issue ∈ report.issues, issue.IsUnbroken

namespace Reviewer

/-- The issues of a review have what the issues of its rules have, if it is not about
severities. -/
theorem forall_mem_issues {P : Issue → Prop}
    (hkeep : ∀ issue severity, P issue → P { issue with severity := severity })
    (reviewer : Reviewer) (text : List Char) (dialect : Dialect)
    (hrules : ∀ rule ∈ reviewer.rules, rule.appliesTo dialect = true →
      ∀ issue ∈ rule.check ⟨text, dialect⟩, P issue) :
    ∀ issue ∈ (reviewer.review text dialect).issues, P issue := by
  intro issue hissue
  rw [review] at hissue
  split at hissue
  · cases hissue
  · obtain ⟨rule, hrule, hissue⟩ := List.mem_flatMap.mp hissue
    obtain ⟨family, -, hrule⟩ := List.mem_flatMap.mp hrule
    rw [contribution] at hissue
    split at hissue
    · next hadmits =>
      have hfound := hrules rule (List.mem_filter.mp hrule).1 (Bool.and_eq_true_iff.mp hadmits).1
      cases hseverity : reviewer.config.severityOf rule.name with
      | none =>
        rw [hseverity] at hissue
        exact hfound issue hissue
      | some severity =>
        rw [hseverity] at hissue
        obtain ⟨found, hmem, rfl⟩ := List.mem_map.mp hissue
        exact hkeep found severity (hfound found hmem)
    · cases hissue

/-- Unbroken rules and summaries make unbroken reports. -/
theorem isUnbroken_review (reviewer : Reviewer) (hrules : ∀ rule ∈ reviewer.rules, rule.IsUnbroken)
    (hsummary : ∀ snippet, Text.IsUnbroken (reviewer.summarize snippet)) (text : List Char)
    (dialect : Dialect) : (reviewer.review text dialect).IsUnbroken where
  summary := by
    rw [review]
    split
    · rw [String.toList_ofList]
      decide
    · rw [String.toList_ofList]
      exact Sentence.isUnbroken_ofText (hsummary _)
  issues := forall_mem_issues (fun _ _ h => ⟨h.kind, h.message, h.suggestion⟩) reviewer text dialect
    fun rule hrule _ => hrules rule hrule ⟨text, dialect⟩

theorem isUnbroken_of_mem_configured {preset : Preset} {config : Config} {rule : Rule}
    (h : rule ∈ preset.configured config) : rule.IsUnbroken := by
  obtain ⟨template, htemplate, rfl⟩ := List.mem_map.mp (List.mem_filter.mp h).1
  exact template.isUnbroken_build htemplate _

/-- Whatever is configured, the reports of a preset are unbroken. -/
theorem isUnbroken_configured (preset : Preset) (config : Config) (text : List Char)
    (dialect : Dialect) :
    (review ⟨preset.configured config, Intent.describe, config⟩ text dialect).IsUnbroken :=
  isUnbroken_review _ (fun _ hrule => isUnbroken_of_mem_configured hrule)
    Intent.isUnbroken_describe text dialect

end Reviewer

/-! ## Rows -/

namespace Text

/-- A text in which no line ends is one row, with the ending behind it. -/
theorem rows_append_lf {line : List Char} (h : IsUnbroken line) (rest : List Char) :
    rows (line ++ '\n' :: rest) = ⟨line, ['\n']⟩ :: rows rest := by
  induction line with
  | nil => exact rows_lf rest
  | cons c line ih =>
    obtain ⟨⟨hlf, hcr⟩, hline⟩ := isUnbroken_cons_iff.mp h
    obtain ⟨row, more, hrows, hcons⟩ := rows_cons_of_ne hcr hlf (line ++ '\n' :: rest)
    rw [ih hline] at hrows
    obtain ⟨rfl, rfl⟩ := List.cons_eq_cons.mp hrows
    exact hcons

/-- Unbroken texts with a line feed behind each are as many rows, and an empty one behind. -/
theorem rows_flatMap_lf {lines : List (List Char)} (h : ∀ line ∈ lines, IsUnbroken line)
    (rest : List Char) :
    rows (lines.flatMap (· ++ ['\n']) ++ rest) =
      lines.map (fun line => ⟨line, ['\n']⟩) ++ rows rest := by
  induction lines with
  | nil => rfl
  | cons line lines ih =>
    obtain ⟨hline, hlines⟩ := List.forall_mem_cons.mp h
    simp only [List.flatMap_cons, List.append_assoc, List.map_cons, List.cons_append,
      List.nil_append, rows_append_lf hline, ih hlines]

end Text

theorem Severity.isUnbroken_word (severity : Severity) : IsUnbroken severity.word.toList := by
  cases severity <;> decide

theorem Issue.IsUnbroken.brief {issue : Issue} (h : issue.IsUnbroken) :
    Text.IsUnbroken issue.brief.toList := by
  cases hline : issue.line with
  | none | some n =>
    simp only [Issue.brief, hline, String.toList_append, isUnbroken_append_iff,
      isUnbroken_toString, issue.severity.isUnbroken_word, h.kind, h.message, true_and, and_true]
    and_intros <;> exact isUnbroken_ofList (by decide)

/-- The compact form of an unbroken report has a row for each issue, and nothing else. -/
theorem Report.IsUnbroken.rows_compact {report : Report} (h : report.IsUnbroken) :
    rows (CommandLine.Display.compact report).toList =
      report.issues.map (fun issue => ⟨issue.brief.toList, ['\n']⟩) ++ [⟨[], []⟩] := by
  have htext : (CommandLine.Display.compact report).toList =
      (report.issues.map fun issue => issue.brief.toList).flatMap (· ++ ['\n']) ++ [] := by
    simp [CommandLine.Display.compact, String.toList_join, List.flatMap_map]
  rw [htext, rows_flatMap_lf (List.forall_mem_map.mpr fun issue hi => (h.issues issue hi).brief),
    List.map_map]
  rfl

/-- **One line for each issue.**  Under any configuration with a known preset, neither a line feed
nor a carriage return stands in a string of a report; so the compact form has a row for each
issue, which ends with a line feed, and behind them nothing. -/
theorem Reviewer.review_on_lines {config : Config} {preset : Preset}
    (h : config.parsePreset = .ok preset) :
    ∃ reviewer, ofConfig config = .ok reviewer ∧ ∀ (text : List Char) (dialect : Dialect),
      let report := reviewer.review text dialect
      ('\n' ∉ report.summary.toList ∧ '\r' ∉ report.summary.toList) ∧
      (∀ issue ∈ report.issues, ∀ string ∈ [issue.kind, issue.message, issue.suggestion],
        '\n' ∉ string.toList ∧ '\r' ∉ string.toList) ∧
      rows (CommandLine.Display.compact report).toList =
        report.issues.map (fun issue => ⟨issue.brief.toList, ['\n']⟩) ++ [⟨[], []⟩] := by
  refine ⟨_, ofConfig_eq h, fun text dialect => ?_⟩
  have hunbroken := isUnbroken_configured preset config text dialect
  refine ⟨isUnbroken_iff.mp hunbroken.summary, ?_, hunbroken.rows_compact⟩
  intro issue hissue string hstring
  have hstrings := hunbroken.issues issue hissue
  simp only [List.mem_cons, List.not_mem_nil, or_false] at hstring
  rcases hstring with rfl | rfl | rfl
  · exact isUnbroken_iff.mp hstrings.kind
  · exact isUnbroken_iff.mp hstrings.message
  · exact isUnbroken_iff.mp hstrings.suggestion

/-- A table that stands lines behind its keyword, in a text with endings of both kinds. -/
theorem Reviewer.review_on_lines_of_select :
    let config : Config := ⟨some "full", none, []⟩
    let text := "SELECT *\r\nFROM\r[dbo].[Orders]".toList
    config.parsePreset = .ok .full ∧ ∃ reviewer, ofConfig config = .ok reviewer ∧
      (reviewer.review text .sql).summary = "Retrieves data from dbo.Orders." ∧
      rows (CommandLine.Display.compact (reviewer.review text .sql)).toList =
        [⟨"1: warning [SQL.SelectStar] Usage of SELECT * detected.".toList, ['\n']⟩, ⟨[], []⟩] := by
  intro config text
  have hpreset : config.parsePreset = .ok .full := by decide +kernel
  obtain ⟨reviewer, hreviewer, hreport⟩ := review_on_lines hpreset
  obtain ⟨-, -, hrows⟩ := hreport text .sql
  refine ⟨hpreset, reviewer, hreviewer, ?_⟩
  obtain rfl := Except.ok.inj (hreviewer.symm.trans (ofConfig_eq hpreset))
  refine ⟨by decide +kernel, hrows.trans ?_⟩
  decide +kernel

end LineLint
