import LineLint.Code.Header.TransactSql
import LineLint.Code.Header.VisualBasic
import LineLint.Proofs.LetterCase.Patterns
import LineLint.Proofs.LetterCase.Texts

/-! # Headers in small letters

VB.NET and T-SQL do not mind the case of their keywords and names.  A line in
small letters declares what the line itself declares, under the name in small
letters, and closes, separates and counts the same.
-/
namespace LineLint
namespace Code

open Text (asciiLower)

/-- The header with its name and parameters in small letters. -/
def Header.lower (header : Header) : Header :=
  { header with name := asciiLower header.name, params := header.params.map asciiLower }

@[simp] theorem Header.name_lower (header : Header) :
    header.lower.name = asciiLower header.name := rfl

@[simp] theorem Header.bodiless_lower (header : Header) :
    header.lower.bodiless = header.bodiless := rfl

@[simp] theorem Header.paramCount_lower (header : Header) :
    header.lower.paramCount = header.paramCount := by
  rw [paramCount, lower, Option.map_map, paramCount]
  exact Option.map_congr fun params _ => countParams_asciiLower params

namespace VisualBasic

open Pattern

theorem caseBlind_procedurePattern : procedurePattern.CaseBlind := by
  simp [procedurePattern]

theorem caseBlind_classPattern : classPattern.CaseBlind := by
  simp [classPattern]

theorem caseBlind_procedureEndPattern : procedureEndPattern.CaseBlind := by
  simp [procedureEndPattern]

theorem caseBlind_blockEndPattern : blockEndPattern.CaseBlind := by
  simp [blockEndPattern]

theorem caseBlind_classEndPattern : classEndPattern.CaseBlind := by
  simp [classEndPattern]

theorem caseBlind_ifThenPattern : ifThenPattern.CaseBlind := by
  simp [ifThenPattern, Text.caseBlind_ne]

theorem ofKeyword_asciiLower (keyword : List Char) :
    ProcedureKind.ofKeyword (asciiLower keyword) = ProcedureKind.ofKeyword keyword := by
  rw [ProcedureKind.ofKeyword, Text.asciiLower_sameIgnoringCase, ProcedureKind.ofKeyword]

theorem isClassKeyword_asciiLower (keyword : List Char) :
    isClassKeyword (asciiLower keyword) = isClassKeyword keyword :=
  Text.asciiLower_sameIgnoringCase _ _

theorem procedureHeader?_asciiLower (line : List Char) :
    procedureHeader? (asciiLower line) =
      (procedureHeader? line).map (Prod.map id Header.lower) := by
  rw [procedureHeader?, find?_lower caseBlind_procedurePattern, procedureHeader?,
    Option.map_map, Option.map_map]
  refine Option.map_congr fun m _ => ?_
  simp [Header.lower, ofKeyword_asciiLower]

theorem bodyHeader?_asciiLower (line : List Char) :
    bodyHeader? (asciiLower line) = (bodyHeader? line).map Header.lower := by
  rw [bodyHeader?, procedureHeader?_asciiLower, bodyHeader?]
  cases procedureHeader? line with
  | none => rfl
  | some found =>
    obtain ⟨kind, header⟩ := found
    simp only [Option.map_some, Prod.map_apply, Header.bodiless_lower]
    by_cases hbody : header.bodiless = true <;> simp [hbody]

theorem className?_asciiLower (line : List Char) :
    className? (asciiLower line) = (className? line).map asciiLower := by
  rw [className?, find?_lower caseBlind_classPattern, className?]
  cases classPattern.find? line with
  | none => rfl
  | some m =>
    simp only [Option.map_some, Match.part_lower, isClassKeyword_asciiLower]
    by_cases hclass : isClassKeyword (m.part .keyword) = true <;> simp [hclass]

theorem procedureEnd?_asciiLower (line : List Char) :
    procedureEnd? (asciiLower line) = procedureEnd? line := by
  rw [procedureEnd?, find?_lower caseBlind_procedureEndPattern, procedureEnd?, Option.map_map]
  refine Option.map_congr fun m _ => ?_
  simp [ofKeyword_asciiLower]

theorem endsClass_asciiLower (line : List Char) :
    endsClass (asciiLower line) = endsClass line :=
  occursIn_lower caseBlind_classEndPattern line

theorem stripComment_asciiLower (line : List Char) :
    stripComment (asciiLower line) commentMarker =
      asciiLower (stripComment line commentMarker) :=
  Code.stripComment_asciiLower (by decide) line

theorem codeOnly_asciiLower (line : List Char) :
    codeOnly (asciiLower line) commentMarker = asciiLower (codeOnly line commentMarker) :=
  Code.codeOnly_asciiLower (by decide) line

end VisualBasic

namespace TransactSql

open Pattern

theorem caseBlind_procedurePattern : procedurePattern.CaseBlind := by
  simp [procedurePattern]

theorem caseBlind_beginPattern : beginPattern.CaseBlind := by
  simp [beginPattern]

theorem caseBlind_beginTransactionPattern : beginTransactionPattern.CaseBlind := by
  simp [beginTransactionPattern]

theorem caseBlind_endPattern : endPattern.CaseBlind := by
  simp [endPattern]

theorem caseBlind_asPattern : asPattern.CaseBlind := by
  simp [asPattern]

theorem caseBlind_batchPattern : batchPattern.CaseBlind := by
  simp [batchPattern]

theorem leadingParams_asciiLower (text : List Char) :
    leadingParams (asciiLower text) = (leadingParams text).map asciiLower := by
  cases text with
  | nil => rfl
  | cons c rest =>
    by_cases hopen : c = '('
    · subst hopen
      rw [show asciiLower ('(' :: rest) = '(' :: asciiLower rest from rfl, leadingParams,
        splitAtFirst_asciiLower (by decide), leadingParams, Option.map_map, Option.map_map]
      rfl
    · by_cases hat : c = '@'
      · subst hat
        have hfind := find?_lower caseBlind_asPattern ('@' :: rest)
        rw [show asciiLower ('@' :: rest) = '@' :: asciiLower rest from rfl] at hfind ⊢
        rw [leadingParams, hfind, leadingParams]
        cases asPattern.find? ('@' :: rest) with
        | none => rfl
        | some m =>
          simp only [Option.map_some, Match.offset_lower, Text.asciiLower_take]
          rfl
      · have hopen' : c.toLower ≠ '(' := mt (Text.toLower_eq_iff (by decide)).mp hopen
        have hat' : c.toLower ≠ '@' := mt (Text.toLower_eq_iff (by decide)).mp hat
        simp [leadingParams, hopen, hat, hopen', hat']

theorem procedureHeader?_asciiLower (line : List Char) :
    procedureHeader? (asciiLower line) = (procedureHeader? line).map Header.lower := by
  rw [procedureHeader?, find?_lower caseBlind_procedurePattern, procedureHeader?,
    Option.map_map, Option.map_map]
  refine Option.map_congr fun m _ => ?_
  simp [Header.lower, Text.trimStart_asciiLower, leadingParams_asciiLower]

theorem isBatchSeparator_asciiLower (line : List Char) :
    isBatchSeparator (asciiLower line) = isBatchSeparator line :=
  occursIn_lower caseBlind_batchPattern line

theorem beforeComment_asciiLower (line : List Char) :
    Text.beforeFirst commentMarker (asciiLower line) =
      asciiLower (Text.beforeFirst commentMarker line) :=
  Text.beforeFirst_asciiLower (by decide) line

end TransactSql
end Code
end LineLint
