import LineLint.Proofs.LetterCase.Rules
import LineLint.Rule.Naming

/-! # Names in small letters

VB.NET and T-SQL lines in small letters declare the same names in small letters.
Whether a name is too short, generic or a loop counter does not depend on the
case of its letters, so the check of names ignores case in both dialects.
-/
namespace LineLint
namespace Naming

open Text (asciiLower)
open Code Pattern

/-! ## Names on a line -/

theorem caseBlind_dimPattern : dimPattern.CaseBlind := by
  simp [dimPattern]

theorem caseBlind_forToPattern : forToPattern.CaseBlind := by
  simp [forToPattern, caseBlind_oneOrMore Text.caseBlind_isWordChar]

theorem caseBlind_tableAliasPattern : tableAliasPattern.CaseBlind := by
  simp [tableAliasPattern, caseBlind_oneOrMore (Text.caseBlind_isSpace.comp (!·))]

theorem caseBlind_asAliasPattern : asAliasPattern.CaseBlind := by
  simp [asAliasPattern]

theorem vbnetNames_asciiLower (line : List Char) :
    vbnetNames (asciiLower line) = (vbnetNames line).map (Prod.map asciiLower id) := by
  simp only [vbnetNames, VisualBasic.codeOnly_asciiLower,
    VisualBasic.procedureHeader?_asciiLower, allMatches_lower caseBlind_dimPattern,
    List.map_append, List.map_map, Option.toList_map]
  congr 1
  refine List.map_congr_left ?_
  intro m _
  simp

theorem isNonAlias_asciiLower (word : List Char) :
    isNonAlias (asciiLower word) = isNonAlias word := by
  simp only [isNonAlias, Text.sameIgnoringCase_asciiLower]

theorem dedupIgnoringCase_asciiLower (seen names : List (List Char)) :
    dedupIgnoringCase (seen.map asciiLower) (names.map asciiLower) =
      (dedupIgnoringCase seen names).map asciiLower := by
  induction names generalizing seen with
  | nil => rfl
  | cons name names ih =>
    have hseen : (seen.map asciiLower).any (Text.sameIgnoringCase · (asciiLower name)) =
        seen.any (Text.sameIgnoringCase · name) := by
      rw [List.any_map]
      congr 1
      funext other
      exact (Text.asciiLower_sameIgnoringCase other _).trans
        (Text.sameIgnoringCase_asciiLower other name)
    rw [List.map_cons, dedupIgnoringCase, dedupIgnoringCase, hseen]
    split
    · exact ih seen
    · -- the kept name is among the seen ones from here on
      exact congrArg (asciiLower name :: ·) (ih (name :: seen))

theorem aliases_asciiLower (code : List Char) :
    aliases (asciiLower code) = (aliases code).map asciiLower := by
  have hkeep : (fun name => !isNonAlias name) ∘ asciiLower = fun name => !isNonAlias name := by
    funext name
    exact congrArg (!·) (isNonAlias_asciiLower name)
  simp only [aliases, allMatches_lower caseBlind_tableAliasPattern,
    allMatches_lower caseBlind_asAliasPattern, ← List.map_append, Match.map_part_lower,
    List.filter_map, hkeep]
  exact dedupIgnoringCase_asciiLower [] _

theorem sqlNames_asciiLower (line : List Char) :
    sqlNames (asciiLower line) = (sqlNames line).map (Prod.map asciiLower id) := by
  simp only [sqlNames, TransactSql.beforeComment_asciiLower,
    TransactSql.procedureHeader?_asciiLower, aliases_asciiLower, List.map_append, List.map_map,
    Option.toList_map]
  rfl

theorem lineNames_asciiLower {dialect : Dialect} (hdialect : dialect = .vbnet ∨ dialect = .sql)
    (line : List Char) :
    lineNames dialect (asciiLower line) =
      (lineNames dialect line).map (Prod.map asciiLower id) := by
  rcases hdialect with rfl | rfl
  · exact vbnetNames_asciiLower line
  · exact sqlNames_asciiLower line

theorem vbnetCounter?_asciiLower (line : List Char) :
    vbnetCounter? (asciiLower line) = vbnetCounter? line := by
  rw [vbnetCounter?, find?_lower caseBlind_forToPattern, vbnetCounter?]
  cases forToPattern.find? line with
  | none => rfl
  | some m => simp only [Option.map_some, Match.part_lower, Text.asciiLower_asciiLower]

theorem lineCounter?_asciiLower {dialect : Dialect}
    (hdialect : dialect = .vbnet ∨ dialect = .sql) (line : List Char) :
    lineCounter? dialect (asciiLower line) = lineCounter? dialect line := by
  rcases hdialect with rfl | rfl
  · exact vbnetCounter?_asciiLower line
  · rfl

/-! ## Names in a snippet -/

/-- The same name in small letters. -/
def Found.lower (found : Found) : Found :=
  { found with name := asciiLower found.name }

theorem foundIn_lower {snippet : Snippet}
    (hdialect : snippet.dialect = .vbnet ∨ snippet.dialect = .sql) :
    foundIn snippet.lower = (foundIn snippet).map Found.lower := by
  refine snippet.flatMap_numberedLines_lower ?_
  intro line number
  rw [Snippet.dialect_lower, lineNames_asciiLower hdialect, List.map_map, List.map_map]
  rfl

theorem countersOf_lower {snippet : Snippet}
    (hdialect : snippet.dialect = .vbnet ∨ snippet.dialect = .sql) :
    countersOf snippet.lower = countersOf snippet := by
  simp only [countersOf, Snippet.lines_lower, Snippet.dialect_lower, List.filterMap_map]
  congr 1
  funext line
  exact lineCounter?_asciiLower hdialect line

/-! ## Faults -/

theorem startsWithDigit_asciiLower (name : List Char) :
    startsWithDigit (asciiLower name) = startsWithDigit name := by
  cases name with
  | nil => rfl
  | cons c name => exact Text.caseBlind_ascii_isDigit c

theorem isGeneric_asciiLower (name : List Char) :
    isGeneric (asciiLower name) = isGeneric name := by
  simp only [isGeneric, Text.sameIgnoringCase_asciiLower]

theorem faults_asciiLower (name : List Char) (role : Role) (excused : Bool) :
    faults (asciiLower name) role excused = faults name role excused := by
  simp only [faults, startsWithDigit_asciiLower, isGeneric_asciiLower, Text.length_asciiLower]

/-- A name in small letters has the same faults, whatever the advice. -/
theorem marks_issuesFor (counters : List (List Char)) (advice advice' : String) (found : Found) :
    (issuesFor counters advice found.lower).map Issue.mark =
      (issuesFor counters advice' found).map Issue.mark := by
  simp only [issuesFor, Found.lower, faults_asciiLower, Text.asciiLower_asciiLower, List.map_map]
  rfl

end Naming

namespace Rule

theorem ignoresCase_nonDescriptiveNames {dialect : Dialect}
    (hdialect : dialect = .vbnet ∨ dialect = .sql) : nonDescriptiveNames.IgnoresCase dialect := by
  intro snippet hsnippet
  subst hsnippet
  simp only [nonDescriptiveNames, Naming.foundIn_lower hdialect, Naming.countersOf_lower hdialect,
    List.flatMap_map, List.map_flatMap]
  congr 1
  funext found
  exact Naming.marks_issuesFor _ _ _ found

end Rule
end LineLint
