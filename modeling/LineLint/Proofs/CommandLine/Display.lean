import LineLint.Proofs.Unbroken.Review
import LineLint.Proofs.Wire.Report

/-!
# What is read off a shown report

The JSON form can be read back: it is an object with the summary, the dialect and
the issues in their order (`parse?_json`).  The text form can be read line by
line, since no line ends inside the strings of a report (`lines_text`): behind a
heading of seven lines there is a line for each issue, numbered from one, and then
the counts, which add up to the number of issues.
-/
namespace LineLint
namespace CommandLine
namespace Display

open Data Text

/-! ## The JSON form -/

theorem isWritable_encode (depth : Nat) (dialect : Dialect) (report : Report)
    (h : Wire.LineNumbersFit report.issues) :
    Json.IsWritable (depth + 3) (encode dialect report) := by
  simpa [encode, Json.IsWritable] using fun issue hissue =>
    Wire.isWritable_encodeIssue depth issue (h issue hissue)

/-- The JSON form is read as the data it was made of. -/
theorem parse?_json (dialect : Dialect) (report : Report)
    (h : Wire.LineNumbersFit report.issues) :
    Json.parse? (json dialect report) = some (encode dialect report) := by
  have htext : (json dialect report).toList =
      Json.write Json.indented 0 (encode dialect report) ++ ['\n'] := by
    rw [json, Json.renderIndented, String.toList_append, String.toList_ofList]
    rfl
  have hblank : ∀ c ∈ ['\n'], Json.isBlank c = true := List.forall_mem_singleton.mpr rfl
  have hscan := Json.scan_write Json.indented_isBlank (isWritable_encode 124 dialect report h)
    hblank
  simp [Json.parse?, htext, hscan]

/-! ## The text form -/

/-- The lines above the issues. -/
def heading (dialect : Dialect) (report : Report) : List String :=
  ["=== Summary ===", report.summary, "", "=== Language ===", dialect.name, "",
   "=== Issues Found ==="]

/-- The line for an issue with its number. -/
def numberedLine (issue : Issue × Nat) : String :=
  color issue.1.severity ++ toString issue.2 ++ ". " ++ issue.1.describe ++ plain

/-- The line that counts the issues of each severity. -/
def tallyLine (report : Report) : String :=
  "Found " ++ toString (report.count .error) ++ " error(s), " ++
    toString (report.count .warning) ++ " warning(s), " ++
    toString (report.count .info) ++ " info(s)"

/-- The lines below the issues. -/
def footer (report : Report) : List String :=
  if report.issues.isEmpty then ["No issues detected."] else ["", tallyLine report]

/-- The lines of the text form. -/
def textLines (dialect : Dialect) (report : Report) : List String :=
  heading dialect report ++ (report.issues.zipIdx 1).map numberedLine ++ footer report

theorem tally_eq (report : Report) : tally report = "" ++ "\n" ++ (tallyLine report ++ "\n") := by
  have hfound : "\nFound " = "\n" ++ "Found " := rfl
  have hinfos : " info(s)\n" = " info(s)" ++ "\n" := rfl
  simp only [tally, tallyLine, hfound, hinfos, String.append_assoc, String.empty_append]

theorem issueSection_eq_join (report : Report) :
    issueSection report =
      String.join (((report.issues.zipIdx 1).map numberedLine ++ footer report).map (· ++ "\n")) := by
  cases hissues : report.issues with
  | nil =>
    have hnone : noIssues = "No issues detected." ++ "\n" := rfl
    simp only [issueSection, footer, hissues, hnone, List.isEmpty_nil, if_true, List.zipIdx_nil,
      List.map_nil, List.nil_append, List.map_cons, String.join_cons, String.join_nil,
      String.append_empty]
  | cons issue issues =>
    have hnumbered : numbered = fun issue => numberedLine issue ++ "\n" := rfl
    simp only [issueSection, footer, hissues, hnumbered, tally_eq, List.isEmpty_cons,
      Bool.false_eq_true, if_false, List.map_append, List.map_map, String.join_append,
      List.map_cons, List.map_nil, String.join_cons, String.join_nil, String.append_empty,
      Function.comp_def]

/-- The text form consists of its lines. -/
theorem text_eq_join (dialect : Dialect) (report : Report) :
    text dialect report =
      String.join ((textLines dialect report).map (· ++ "\n")) := by
  have hsummary : "=== Summary ===\n" = "=== Summary ===" ++ "\n" := rfl
  have hlanguage : "\n\n=== Language ===\n" =
      "\n" ++ "\n" ++ ("=== Language ===" ++ "\n") := rfl
  have hissues : "\n\n=== Issues Found ===\n" =
      "\n" ++ "\n" ++ ("=== Issues Found ===" ++ "\n") := rfl
  unfold text
  simp only [issueSection_eq_join, hsummary, hlanguage, hissues, textLines, heading,
    List.map_append, String.join_append, List.map_cons, List.map_nil, String.join_cons, String.join_nil,
    String.append_empty, String.empty_append, String.append_assoc]

theorem isUnbroken_describe {issue : Issue} (h : issue.IsUnbroken) :
    IsUnbroken issue.describe.toList := by
  cases hline : issue.line with
  | none | some n =>
    simp only [Issue.describe, hline, String.toList_append, isUnbroken_append_iff,
      isUnbroken_toString, h.kind, h.message, h.suggestion, and_true]
    and_intros <;> exact isUnbroken_ofList (by decide)

theorem isUnbroken_numberedLine {issue : Issue} (h : issue.IsUnbroken) (n : Nat) :
    IsUnbroken (numberedLine (issue, n)).toList := by
  have hcolor : IsUnbroken (color issue.severity).toList := by
    cases issue.severity <;> exact isUnbroken_ofList (by decide)
  have hplain : IsUnbroken plain.toList := isUnbroken_ofList (by decide)
  have hpoint : IsUnbroken ". ".toList := isUnbroken_ofList (by decide)
  simp only [numberedLine, String.toList_append, isUnbroken_append_iff, isUnbroken_toString,
    isUnbroken_describe h, hcolor, hplain, hpoint, and_self]

theorem isUnbroken_tallyLine (report : Report) : IsUnbroken (tallyLine report).toList := by
  simp only [tallyLine, String.toList_append, isUnbroken_append_iff, isUnbroken_toString, and_true]
  and_intros <;> exact isUnbroken_ofList (by decide)

theorem isUnbroken_of_mem_heading {dialect : Dialect} {report : Report} (h : report.IsUnbroken) :
    ∀ line ∈ heading dialect report, IsUnbroken line.toList := by
  have hname : IsUnbroken dialect.name.toList := by
    cases dialect <;> exact isUnbroken_ofList (by decide)
  simp only [heading, List.forall_mem_cons, List.not_mem_nil, false_imp_iff, implies_true,
    and_true, h.summary, hname, true_and]
  and_intros <;> exact isUnbroken_ofList (by decide)

theorem isUnbroken_of_mem_footer (report : Report) :
    ∀ line ∈ footer report, IsUnbroken line.toList := by
  rw [footer]
  split
  · exact List.forall_mem_singleton.mpr (isUnbroken_ofList (by decide))
  · exact List.forall_mem_cons.mpr ⟨isUnbroken_ofList (by decide),
      List.forall_mem_singleton.mpr (isUnbroken_tallyLine report)⟩

theorem isUnbroken_of_mem_textLines {dialect : Dialect} {report : Report} (h : report.IsUnbroken) :
    ∀ line ∈ textLines dialect report, IsUnbroken line.toList := by
  rw [textLines, List.forall_mem_append, List.forall_mem_append, List.forall_mem_map]
  refine ⟨⟨isUnbroken_of_mem_heading h, ?_⟩, isUnbroken_of_mem_footer report⟩
  rintro ⟨issue, n⟩ hissue
  exact isUnbroken_numberedLine (h.issues issue (List.fst_mem_of_mem_zipIdx hissue)) n

/-- **The lines of the text form**: the heading, a line for each issue with its number, and the
counts. -/
theorem lines_text (dialect : Dialect) {report : Report} (h : report.IsUnbroken) :
    lines (text dialect report).toList =
      (textLines dialect report).map String.toList ++ [[]] := by
  have htext : (text dialect report).toList =
      ((textLines dialect report).map String.toList).flatMap (· ++ ['\n']) ++ [] := by
    rw [text_eq_join, String.toList_join, List.flatMap_map, List.flatMap_map, List.append_nil]
    refine List.flatMap_congr fun line _ => ?_
    rw [String.toList_append]
    rfl
  have hunbroken : ∀ line ∈ (textLines dialect report).map String.toList, IsUnbroken line :=
    List.forall_mem_map.mpr (isUnbroken_of_mem_textLines h)
  rw [lines, htext, rows_flatMap_lf hunbroken, List.map_append, List.map_map]
  simp only [Function.comp_def, List.map_id', rows_nil, List.map_cons, List.map_nil]

end Display
end CommandLine
end LineLint
