import LineLint.Detection
import LineLint.Proofs.Layout.Gaps
import LineLint.Proofs.Layout.Rules

/-! # Dialects and summaries of texts that are alike

Both are told from the text as a whole.  The telltale texts of a dialect and the
keywords of statements lie within lines, declared names are looked for line by
line, and a table is read across gaps; so texts that are alike are of one dialect
and have one summary.
-/
namespace LineLint

open Text (IndentBlind)

namespace Detection

theorem holdsMarker_congr {markers : List String}
    (hmarkers : markers.all (fun marker => Text.isInline marker.toList) = true)
    {a b : List Char} (h : Text.Alike a b) :
    holdsMarker (Text.lower a) markers = holdsMarker (Text.lower b) markers := by
  rw [holdsMarker, holdsMarker, Bool.eq_iff_iff, List.any_eq_true, List.any_eq_true]
  refine exists_congr fun marker => and_congr_right fun hmem => ?_
  have hinline : Text.isInline marker.toList = true := List.all_eq_true.mp hmarkers marker hmem
  rw [(Text.lineWise_contains_lower hinline).congr h]

/-- Texts that are alike are of one dialect. -/
theorem detect_congr {a b : List Char} (h : Text.Alike a b) : detect a = detect b := by
  have hinline : ∀ tier ∈ tiers,
      tier.2.all (fun marker => Text.isInline marker.toList) = true := by
    decide
  have htiers : tiers.find? (fun tier => holdsMarker (Text.lower a) tier.2) =
      tiers.find? fun tier => holdsMarker (Text.lower b) tier.2 := by
    rw [← List.head?_filter, ← List.head?_filter]
    congr 1
    exact List.filter_congr fun tier htier => holdsMarker_congr (hinline tier htier) h
  rw [detect, htiers, Text.lineWise_isBlank.congr h, detect]

end Detection

namespace Intent

theorem ofSql_congr {a b : List Char} (h : Text.Alike a b) : ofSql a = ofSql b := by
  have hkeyword : ∀ needle : List Char, Text.isInline needle = true →
      Text.contains (Text.upper a) needle = Text.contains (Text.upper b) needle :=
    fun _ hneedle => (Text.lineWise_contains_upper hneedle).congr h
  have htable : ∀ front keyword : String,
      keyword.toList.all (fun letter => Text.solid (Pattern.foldsTo letter)) = true →
      (tablePattern keyword).startsSolid = true →
      aboutTable front keyword a = aboutTable front keyword b := by
    intro front keyword hletters hsolid
    rw [aboutTable, tableBehind_congr hletters hsolid h, aboutTable]
  simp only [ofSql, hkeyword "SELECT".toList (by decide), hkeyword "INSERT".toList (by decide),
    hkeyword "UPDATE".toList (by decide), hkeyword "DELETE".toList (by decide),
    htable _ "FROM" (by decide) (by decide),
    htable _ "INTO" (by decide) (by decide),
    htable _ "UPDATE" (by decide) (by decide),
    occursIn_createRoutinePattern_congr h]

theorem indentBlind_procedureName? (dialect : Dialect) :
    IndentBlind (procedureName? dialect) := by
  intro c line hc
  cases dialect with
  | vbnet =>
    rw [procedureName?, Code.VisualBasic.indentBlind_procedureHeader? c line hc, procedureName?]
  | csharp | sql | unknown =>
    simp only [procedureName?, Code.CSharp.indentBlind_methodHeader? c line hc]

theorem indentBlind_className? (dialect : Dialect) : IndentBlind (className? dialect) := by
  cases dialect with
  | vbnet => exact Code.VisualBasic.indentBlind_className?
  | csharp | sql | unknown => exact Code.CSharp.indentBlind_className?

variable {s t : Snippet}

/-- What is found on the first line that has it is the same. -/
theorem findSome?_congr {α : Type} {find : List Char → Option α} (hfind : IndentBlind find)
    (h : s.Alike t) : s.lines.findSome? find = t.lines.findSome? find := by
  refine h.congr_lines (f := List.findSome? find) ?_
  intro lines
  rw [List.findSome?_map]
  congr 1
  exact funext hfind.trimStart

theorem ofCode_congr (h : s.Alike t) : ofCode s = ofCode t := by
  have hloan : LoanTerms.mentionedIn s.text = LoanTerms.mentionedIn t.text :=
    LoanTerms.lineWise_mentionedIn.congr h.text
  have hdeclared : firstDeclared? s = firstDeclared? t := by
    rw [firstDeclared?, h.dialect, findSome?_congr (indentBlind_procedureName? t.dialect) h,
      findSome?_congr (indentBlind_className? t.dialect) h, firstDeclared?]
  rw [ofCode, hloan, hdeclared, ofCode]

/-- Snippets that are alike are for the same. -/
theorem describe_congr (h : s.Alike t) : describe s = describe t := by
  have hblank : s.isBlank = t.isBlank := Text.lineWise_isBlank.congr h.text
  simp only [describe, hblank, h.dialect, ofSql_congr h.text, ofCode_congr h]

end Intent
end LineLint
