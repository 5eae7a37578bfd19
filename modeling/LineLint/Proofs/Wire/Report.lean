import LineLint.Proofs.Json.RoundTrip
import LineLint.Wire.Report
import Mathlib.Algebra.Group.Nat.Defs

/-!
# Reports are read back

What a report is written as is read back as the same report
(`read_written_report`), on one line or with indentation.

A reader takes more than a writer gives: members in any order, unknown members,
lists in place of objects, several spellings of a severity, a missing line.  But
whatever it takes, the report that it makes is one that a writer can write: texts
are texts, and a line has passed the check on its size (`lineNumbersFit_of_decodeReport`).
So a second reading gives the same report again.
-/

namespace LineLint
namespace Wire

open Data Json

/-- The lines of all issues are held by 64 bits. -/
def LineNumbersFit (issues : List Issue) : Prop :=
  ∀ issue ∈ issues, ∀ n, issue.line = some n → n < 2 ^ 64

theorem wordBound_eq : wordBound = 2 ^ 64 :=
  rfl

/-! ## What is written decodes -/

theorem decodeCount_int (n : Nat) (h : n < 2 ^ 64) : decodeCount (.int n) = .ok n := by
  have hn : (n : Int) < wordBound := by
    rw [wordBound_eq]
    omega
  rw [decodeCount, if_pos (by simpa using hn), Int.toNat_natCast]

theorem decodeOption_ofOption (line : Option Nat) (h : ∀ n, line = some n → n < 2 ^ 64) :
    decodeOption decodeCount (Value.ofOption (fun n : Nat => .int n) line) = .ok line := by
  cases line with
  | none => rfl
  | some n =>
    rw [Value.ofOption, decodeOption, decodeCount_int n (h n rfl)]
    · rfl
    · simp

theorem decodeSeverity_name (format : Format) (severity : Severity) :
    decodeSeverity format (.string severity.name) = .ok severity := by
  simp [decodeSeverity, Severity.ofName?_name]

theorem decodeIssue_encodeIssue (issue : Issue) (h : ∀ n, issue.line = some n → n < 2 ^ 64) :
    decodeIssue (encodeIssue issue) = .ok issue := by
  simp [decodeIssue, encodeIssue, membersOf, required, optional, refuseLeftover, decodeString,
    decodeSeverity_name, decodeOption_ofOption issue.line h, bind, Except.bind, pure, Except.pure]

theorem decodeItems_map {α : Type} {decode : Value → Except Fault α} {encode : α → Value}
    (items : List α) (h : ∀ item ∈ items, decode (encode item) = .ok item) :
    decodeItems decode (items.map encode) = .ok items := by
  induction items with
  | nil => rfl
  | cons item items ih =>
    have hothers := ih fun item hitem => h item (List.mem_cons_of_mem _ hitem)
    simp [decodeItems, h item List.mem_cons_self, hothers, Except.map]

theorem decodeReport_encodeReport (report : Report) (h : LineNumbersFit report.issues) :
    decodeReport (encodeReport report) = .ok report := by
  have hissues := decodeItems_map report.issues fun issue hissue =>
    decodeIssue_encodeIssue issue (h issue hissue)
  simp [decodeReport, encodeReport, membersOf, required, refuseLeftover, decodeString, decodeList,
    hissues, bind, Except.bind, pure, Except.pure]

/-! ## What is written has a text -/

theorem isWritable_encodeIssue (depth : Nat) (issue : Issue)
    (h : ∀ n, issue.line = some n → n < 2 ^ 64) :
    IsWritable (depth + 1) (encodeIssue issue) := by
  have hline : IsWritable depth (Value.ofOption (fun n : Nat => .int n) issue.line) := by
    cases hline : issue.line with
    | none => simp [Value.ofOption, IsWritable]
    | some n =>
      have hn : n < wordBound := wordBound_eq ▸ h n hline
      simp only [Value.ofOption, IsWritable]
      omega
  simpa [encodeIssue, IsWritable] using hline

theorem isWritable_encodeReport (depth : Nat) (report : Report)
    (h : LineNumbersFit report.issues) : IsWritable (depth + 3) (encodeReport report) := by
  simpa [encodeReport, IsWritable] using fun issue hissue =>
    isWritable_encodeIssue depth issue (h issue hissue)

/-- What a report is written as, in any layout, is read as the same report. -/
theorem readReport_write {layout : Layout} (hlayout : layout.IsBlank) (report : Report)
    (h : LineNumbersFit report.issues) :
    readReport (String.ofList (write layout 0 (encodeReport report))) = .ok report := by
  have hscan := scan_write hlayout (isWritable_encodeReport 124 report h)
    (List.forall_mem_nil _)
  rw [List.append_nil] at hscan
  simp [readReport, readJson, hscan, decodeReport_encodeReport report h]

/-! ## What is read has lines that fit -/

/-- A computation of several steps has a result only if its first step has one. -/
theorem exists_of_bind_eq_ok {α β : Type} {first : Except Fault α} {next : α → Except Fault β}
    {result : β} (h : first >>= next = .ok result) :
    ∃ value, first = .ok value ∧ next value = .ok result := by
  cases first with
  | error fault => cases h
  | ok value => exact ⟨value, rfl, h⟩

theorem lt_of_decodeCount {value : Value} {n : Nat} (h : decodeCount value = .ok n) :
    n < 2 ^ 64 := by
  unfold decodeCount at h
  split at h
  · split at h
    · next value hbound =>
      simp only [wordBound_eq, Bool.and_eq_true, decide_eq_true_eq] at hbound
      obtain ⟨hnonneg, hlt⟩ := hbound
      cases h
      exact (Int.toNat_lt hnonneg).mpr (of_decide_eq_true hlt)
    · cases h
  · cases h

theorem decodeOption_eq_some {α : Type} {decode : Value → Except Fault α} {value : Value} {a : α}
    (h : decodeOption decode value = .ok (some a)) : decode value = .ok a := by
  unfold decodeOption at h
  split at h
  · cases h
  · cases hdecode : decode value with
    | error fault => simp [hdecode, Except.map] at h
    | ok b => simpa [hdecode, Except.map] using h

theorem lt_of_decodeIssue {value : Value} {issue : Issue} (h : decodeIssue value = .ok issue)
    (n : Nat) (hn : issue.line = some n) : n < 2 ^ 64 := by
  obtain ⟨members, -, h⟩ := exists_of_bind_eq_ok h
  obtain ⟨kind, -, h⟩ := exists_of_bind_eq_ok h
  obtain ⟨line, hline, h⟩ := exists_of_bind_eq_ok h
  obtain ⟨message, -, h⟩ := exists_of_bind_eq_ok h
  obtain ⟨suggestion, -, h⟩ := exists_of_bind_eq_ok h
  obtain ⟨severity, -, h⟩ := exists_of_bind_eq_ok h
  obtain ⟨-, -, h⟩ := exists_of_bind_eq_ok h
  obtain ⟨member, -, hdecode⟩ := exists_of_bind_eq_ok hline
  cases h
  cases hn
  exact lt_of_decodeCount (decodeOption_eq_some hdecode)

theorem of_mem_decodeItems {α : Type} {decode : Value → Except Fault α} {values : List Value} :
    ∀ {items : List α}, decodeItems decode values = .ok items →
      ∀ item ∈ items, ∃ value, decode value = .ok item := by
  induction values with
  | nil =>
    intro items h item hitem
    cases h
    simp at hitem
  | cons value values ih =>
    intro items h
    unfold decodeItems at h
    cases hfirst : decode value with
    | error fault => simp [hfirst] at h
    | ok first =>
      cases hothers : decodeItems decode values with
      | error fault => simp [hfirst, hothers, Except.map] at h
      | ok others =>
        obtain rfl : first :: others = items := by simpa [hfirst, hothers, Except.map] using h
        exact List.forall_mem_cons.mpr ⟨⟨value, hfirst⟩, ih hothers⟩

/-- The lines of a report that was read are held by 64 bits. -/
theorem lineNumbersFit_of_decodeReport {value : Value} {report : Report}
    (h : decodeReport value = .ok report) : LineNumbersFit report.issues := by
  obtain ⟨members, -, h⟩ := exists_of_bind_eq_ok h
  obtain ⟨summary, -, h⟩ := exists_of_bind_eq_ok h
  obtain ⟨issues, hissues, h⟩ := exists_of_bind_eq_ok h
  obtain ⟨-, -, h⟩ := exists_of_bind_eq_ok h
  obtain ⟨member, -, hdecode⟩ := exists_of_bind_eq_ok hissues
  cases h
  intro issue hissue
  cases member with
  | array items =>
    obtain ⟨value, hvalue⟩ := of_mem_decodeItems hdecode issue hissue
    exact lt_of_decodeIssue hvalue
  | _ => cases hdecode

/-- A report that is read from a text is decoded from a value. -/
theorem exists_of_readReport {text : String} {report : Report}
    (h : readReport text = .ok report) : ∃ value, decodeReport value = .ok report := by
  unfold readReport readJson at h
  cases hvalue : (scan text.toList).value with
  | none => simp [hvalue] at h
  | some value =>
    refine ⟨value, ?_⟩
    simp only [hvalue] at h
    split at h
    · cases h
    · split at h
      · exact h
      · cases h

/-! ## The round trip -/

/-- A report is read back from what it is written as, on one line or with indentation, if the lines
of its issues are held by 64 bits; and what has been read from any text is read back, too. -/
theorem read_written_report :
    (∀ report : Report,
      (∀ issue ∈ report.issues, ∀ n, issue.line = some n → n < 2 ^ 64) →
      readReport (writeReport report) = .ok report ∧
      readReport (Json.renderIndented (encodeReport report)) = .ok report) ∧
    (∀ (text : String) (report : Report), readReport text = .ok report →
      readReport (writeReport report) = .ok report ∧
      readReport (Json.renderIndented (encodeReport report)) = .ok report) := by
  have hread (report : Report) (h : LineNumbersFit report.issues) :
      readReport (writeReport report) = .ok report ∧
        readReport (Json.renderIndented (encodeReport report)) = .ok report :=
    ⟨readReport_write oneLine_isBlank report h, readReport_write indented_isBlank report h⟩
  refine ⟨hread, fun text report htext => hread report ?_⟩
  obtain ⟨value, hvalue⟩ := exists_of_readReport htext
  exact lineNumbersFit_of_decodeReport hvalue

/-- A report whose line is the greatest that 64 bits hold, and one that is read from lists, with a
severity in small letters and a character outside the first plane written as a pair. -/
theorem read_written_report_of_lists :
    readReport (writeReport ⟨"Read.", [⟨"A\"B", some (2 ^ 64 - 1), "\n", "", .error⟩]⟩) =
        .ok ⟨"Read.", [⟨"A\"B", some (2 ^ 64 - 1), "\n", "", .error⟩]⟩ ∧
      readReport "[\"\\ud83d\\ude00\", [[\"k\", null, \"m\", \"\", \"info\"]]]" =
        .ok ⟨"😀", [⟨"k", none, "m", "", .info⟩]⟩ ∧
      readReport (writeReport ⟨"😀", [⟨"k", none, "m", "", .info⟩]⟩) =
        .ok ⟨"😀", [⟨"k", none, "m", "", .info⟩]⟩ := by
  have hlists : readReport "[\"\\ud83d\\ude00\", [[\"k\", null, \"m\", \"\", \"info\"]]]" =
      .ok ⟨"😀", [⟨"k", none, "m", "", .info⟩]⟩ := by
    decide +kernel
  exact ⟨(read_written_report.1 _ (by simp)).1, hlists, (read_written_report.2 _ _ hlists).1⟩

end Wire
end LineLint
