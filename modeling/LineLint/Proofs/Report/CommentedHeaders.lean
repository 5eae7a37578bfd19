import LineLint.Intent
import LineLint.Proofs.Block.Keywords
import LineLint.Proofs.Layout.Lines
import LineLint.Proofs.Report.Parameters

/-! # Headers in comments

The patterns for methods and classes do not get past the marker of a comment.  So a header in front
of a comment is seen with the comment as well as without it
(`Code.CSharp.methodHeader?_of_codeHeader?`), and nothing is lost by looking at whole lines.

But something may be added.  The rule for long parameter lists and the sentence for a snippet
look at whole lines, and they see headers in comments, and lists that close in one.  Apart from
those, both are the same for a text whose comments have been taken out
(`issues_and_sentence_of_stripped`).
-/
namespace LineLint

open Text (SetOff)

namespace Code
/-- A text that is split stays so with more text behind it. -/
theorem splitAtFirst_append {close : Char} {text front : List Char}
    (h : (splitAtFirst close text).map (·.1) = some front) (tail : List Char) :
    (splitAtFirst close (text ++ tail)).map (·.1) = some front := by
  rw [splitAtFirst_eq] at h ⊢
  by_cases hclose : close ∈ text
  · rw [if_pos hclose] at h
    obtain ⟨list, rest, rfl, -⟩ := List.eq_append_cons_of_mem hclose
    rw [if_pos (List.mem_append_left _ hclose), List.append_assoc, List.cons_append,
      takeWhile_append_cons_close, ← takeWhile_append_cons_close close list rest, h]
  · rw [if_neg hclose] at h
    cases h

namespace CSharp

open Pattern

/-! ## Lines without their comments -/

/-- A comment is set off from the line by its marker. -/
theorem exists_setOff (line : List Char) :
    ∃ tail, line = stripComment line commentMarker ++ tail ∧ SetOff '/' tail := by
  obtain ⟨tail, hline, htail⟩ := exists_append_cutComment commentMarker false line
  refine ⟨tail, hline, ?_, by decide⟩
  rcases htail with rfl | ⟨rest, rfl⟩
  · simp
  · simp [commentMarker]

variable {code tail line name : List Char} {m : Match} {header : Header}

theorem declares_extend (tail : List Char) (m : Match) :
    declares (m.map (Cursor.extend tail)) = declares m := by
  simp only [declares, Match.part_extend]

/-- A method that is declared in front of a comment is the first one on the line. -/
theorem firstMethod?_append (h : SetOff '/' tail) (hm : firstMethod? code = some m) :
    firstMethod? (code ++ tail) = some (m.map (Cursor.extend tail)) := by
  have hkept : ((methodPattern.allMatches code).map (Match.map (Cursor.extend tail))).filter
      declares = ((methodPattern.allMatches code).filter declares).map
        (Match.map (Cursor.extend tail)) := by
    rw [List.filter_map]
    congr 2
    exact funext (declares_extend tail)
  rw [firstMethod?] at hm
  rw [firstMethod?, allMatches_append (by decide) (by decide) h, List.filter_append, hkept,
    List.head?_append, List.head?_map, hm]
  rfl

/-- **A header in front of a comment is seen with the comment as well**, under the same name, and
with the same parameters if its list closes there. -/
theorem methodHeader?_of_codeHeader? (h : codeHeader? line = some header) :
    ∃ whole, methodHeader? line = some whole ∧ whole.name = header.name ∧
      ∀ params, header.params = some params → whole.params = some params := by
  obtain ⟨tail, hline, htail⟩ := exists_setOff line
  rw [codeHeader?, methodHeader?_eq] at h
  generalize stripComment line commentMarker = code at h hline
  obtain ⟨m, hm, rfl⟩ := Option.map_eq_some_iff.mp h
  rw [hline, methodHeader?_eq, firstMethod?_append htail hm]
  refine ⟨_, rfl, ?_, fun params hparams => ?_⟩
  · rw [name_headerOf, name_headerOf, Match.part_extend]
  · rw [params_headerOf] at hparams ⊢
    exact splitAtFirst_append hparams tail

/-- A class in front of a comment is seen with the comment as well. -/
theorem className?_of_stripComment (h : className? (stripComment line commentMarker) = some name) :
    className? line = some name := by
  obtain ⟨tail, hline, htail⟩ := exists_setOff line
  generalize stripComment line commentMarker = code at h hline
  obtain ⟨m, hm, rfl⟩ := Option.map_eq_some_iff.mp h
  rw [find?] at hm
  rw [hline, className?, find?, findBehind_append (by decide) (by decide) htail, hm]
  exact congrArg some (Match.part_extend tail m .name)

end CSharp
end Code

/-! ## Loan terms and blanks -/

namespace Text

/-- A text is blank if its lines are. -/
theorem isBlank_eq_all (text : List Char) : isBlank text = (lines text).all isBlank := by
  rw [lineWise_isBlank.eq_foldLines]
  induction lines text with
  | nil => rfl
  | cons line more ih =>
    cases more with
    | nil => simp [foldLines]
    | cons next more => rw [foldLines, ih, ← List.all_cons]

end Text

namespace LoanTerms

open Text (lines)

/-- Loan terms are mentioned on the lines. -/
theorem mentionedIn_eq_any (text : List Char) :
    mentionedIn text = (lines text).any mentionedIn := by
  rw [lineWise_mentionedIn.eq_foldLines]
  induction lines text with
  | nil => rfl
  | cons line more ih =>
    cases more with
    | nil => simp [Text.foldLines]
    | cons next more => rw [Text.foldLines, ih, ← List.any_cons]

/-- A comment that is cut off takes loan terms away only. -/
theorem mentionedIn_stripComment {line : List Char} (h : mentionedIn line = false) :
    mentionedIn (Code.stripComment line Code.CSharp.commentMarker) = false := by
  obtain ⟨tail, hline, htail⟩ := Code.CSharp.exists_setOff line
  generalize Code.stripComment line Code.CSharp.commentMarker = code at hline ⊢
  cases tail with
  | nil => rwa [hline, List.append_nil] at h
  | cons c tail =>
    obtain rfl := htail.head c rfl
    rw [hline, mentionedIn_append_cons (by decide)] at h
    exact (Bool.or_eq_false_iff.mp h).1

end LoanTerms

namespace Rule

open Code

/-- Whether the parameter list of the first method on a line closes in front of a comment. -/
def closesInCode (line : List Char) : Bool :=
  (CSharp.codeHeader? line).any (·.params.isSome)

/-- What is reported of a line without its comment. -/
theorem longParamsIssue?_stripComment (maxParams number : Nat) (line : List Char) :
    longParamsIssue? maxParams .csharp number (stripComment line CSharp.commentMarker) =
      if closesInCode line then longParamsIssue? maxParams .csharp number line else none := by
  have hcode : callableHeader? .csharp (stripComment line CSharp.commentMarker) =
      CSharp.codeHeader? line := rfl
  have hline : callableHeader? .csharp line = CSharp.methodHeader? line := rfl
  rw [longParamsIssue?, hcode, closesInCode]
  cases hheader : CSharp.codeHeader? line with
  | none => rfl
  | some header =>
    obtain ⟨whole, hwhole, hname, hparams⟩ := CSharp.methodHeader?_of_codeHeader? hheader
    cases hlist : header.params with
    | none => simp [Header.paramCount, hlist]
    | some params =>
      simp only [longParamsIssue?, hline, hwhole, Header.paramCount, hlist, hparams params hlist,
        hname, Option.map_some, Option.any_some, Option.isSome_some, if_true]

/-- Nothing is lost by leaving entries out exactly if there is nothing to keep of them. -/
theorem filterMap_filter_eq_iff {α β : Type} {f : α → Option β} {keeps : α → Bool}
    {entries : List α} :
    (entries.filter keeps).filterMap f = entries.filterMap f ↔
      ∀ a ∈ entries, (f a).isSome = true → keeps a = true := by
  induction entries with
  | nil => simp
  | cons a entries ih =>
    cases hf : f a with
    | none => cases hk : keeps a <;> simp [hf, hk, ih]
    | some b =>
      cases hk : keeps a with
      | true => simp [hf, hk, ih]
      | false =>
        have hle : ((entries.filter keeps).filterMap f).length ≤ (entries.filterMap f).length :=
          (List.filter_sublist.filterMap f).length_le
        refine iff_of_false (fun hsame => ?_) (by simp [hf, hk])
        have hlength := congrArg List.length hsame
        rw [List.filter_cons_of_neg (by simp [hk]), List.filterMap_cons_some hf,
          List.length_cons] at hlength
        omega

variable {text stripped : List Char}

/-- The issues for a text without its comments are those for the lists that close in front of a
comment. -/
theorem longParameterList_stripped (maxParams : Nat)
    (h : Text.lines stripped = (Text.lines text).map (stripComment · CSharp.commentMarker)) :
    (longParameterList maxParams).check ⟨stripped, .csharp⟩ =
      ((Snippet.mk text .csharp).numberedLines.filter fun numbered =>
        closesInCode numbered.1).filterMap fun numbered =>
          longParamsIssue? maxParams .csharp numbered.2 numbered.1 := by
  have hlines : (Snippet.mk stripped .csharp).numberedLines =
      (Snippet.mk text .csharp).numberedLines.map
        (Prod.map (stripComment · CSharp.commentMarker) id) := by
    rw [Snippet.numberedLines, Snippet.lines, h, List.zipIdx_map, Snippet.numberedLines,
      Snippet.lines]
  simp only [longParameterList, hlines, List.filterMap_map, List.filterMap_filter]
  exact List.filterMap_congr fun numbered _ => longParamsIssue?_stripComment maxParams _ _

end Rule

namespace Intent

open Code

variable {text stripped : List Char}

/-- Whether what is declared on the first line that declares something is declared in front of a
comment. -/
def firstInCode (declared? : List Char → Option (List Char)) (lines : List (List Char)) : Bool :=
  (lines.find? fun line => (declared? line).isSome).all fun line =>
    (declared? (stripComment line CSharp.commentMarker)).isSome

/-- The first declaration is the same without the comments, if it is not in one. -/
theorem findSome?_stripComment {declared? : List Char → Option (List Char)}
    (hdeclared : ∀ {line name},
      declared? (stripComment line CSharp.commentMarker) = some name → declared? line = some name)
    {lines : List (List Char)} (h : firstInCode declared? lines = true) :
    (lines.map (stripComment · CSharp.commentMarker)).findSome? declared? =
      lines.findSome? declared? := by
  induction lines with
  | nil => rfl
  | cons line lines ih =>
    rw [List.map_cons, List.findSome?_cons, List.findSome?_cons]
    rw [firstInCode, List.find?_cons] at h
    cases hline : declared? line with
    | none =>
      have hcode : declared? (stripComment line CSharp.commentMarker) = none :=
        Option.eq_none_iff_forall_ne_some.mpr fun name hname => by
          rw [hdeclared hname] at hline
          cases hline
      rw [hline] at h
      rw [hcode]
      exact ih h
    | some name =>
      rw [hline] at h
      obtain ⟨other, hother⟩ := Option.isSome_iff_exists.mp h
      rw [hother, ← hline, hdeclared hother]

theorem isBlank_stripComment {line : List Char} (h : Text.isBlank line = true) :
    Text.isBlank (stripComment line CSharp.commentMarker) = true := by
  have hsubset := List.IsPrefix.subset <| stripComment_prefix line CSharp.commentMarker
  exact List.all_eq_true.mpr fun c hc => List.all_eq_true.mp h c (hsubset hc)

theorem procedureName?_of_stripComment {line name : List Char}
    (h : procedureName? .csharp (stripComment line CSharp.commentMarker) = some name) :
    procedureName? .csharp line = some name := by
  obtain ⟨header, hheader, rfl⟩ := Option.map_eq_some_iff.mp h
  obtain ⟨whole, hwhole, hname, -⟩ := CSharp.methodHeader?_of_codeHeader? hheader
  exact Option.map_eq_some_iff.mpr ⟨whole, hwhole, hname⟩

/-- **The sentence is the same without the comments**, if the first method, or else the first class,
is not declared in one. -/
theorem describe_stripped
    (h : Text.lines stripped = (Text.lines text).map (stripComment · CSharp.commentMarker))
    (hterms : LoanTerms.mentionedIn text = false) (hblank : Text.isBlank stripped = false)
    (hmethods : firstInCode (procedureName? .csharp) (Text.lines text) = true)
    (hclasses : (Text.lines text).findSome? (procedureName? .csharp) = none →
      firstInCode (className? .csharp) (Text.lines text) = true) :
    describe ⟨stripped, .csharp⟩ = describe ⟨text, .csharp⟩ := by
  have hterms' : LoanTerms.mentionedIn stripped = false := by
    rw [LoanTerms.mentionedIn_eq_any, List.any_eq_false] at hterms
    rw [LoanTerms.mentionedIn_eq_any, h, List.any_map, List.any_eq_false]
    intro line hline
    rw [Function.comp_apply, LoanTerms.mentionedIn_stripComment
      ((Bool.not_eq_true _).mp (hterms line hline))]
    exact Bool.false_ne_true
  have hblank' : Text.isBlank text = false := by
    refine (Bool.not_eq_true _).mp fun hall => ?_
    rw [Text.isBlank_eq_all, List.all_eq_true] at hall
    rw [Text.isBlank_eq_all, h, List.all_map, List.all_eq_false] at hblank
    obtain ⟨line, hline, hnot⟩ := hblank
    exact hnot (isBlank_stripComment (hall line hline))
  have hfirst : firstDeclared? ⟨stripped, .csharp⟩ = firstDeclared? ⟨text, .csharp⟩ := by
    simp only [firstDeclared?, Snippet.lines, h]
    rw [findSome?_stripComment procedureName?_of_stripComment hmethods]
    cases hnone : (Text.lines text).findSome? (procedureName? .csharp) with
    | some name => rfl
    | none => exact findSome?_stripComment CSharp.className?_of_stripComment (hclasses hnone)
  simp only [describe, Snippet.isBlank, hblank, hblank', ofCode, hterms, hterms', hfirst]

end Intent

section Stripped

open Code Intent Rule

variable {text stripped : List Char}

/-- **When comments do not matter.**  If all comments are taken out of a text of C#, the issues for
long parameter lists stay the same exactly if each list that is reported closes in front of a
comment.  The sentence stays the same if there is more than white space left, no loan terms
are mentioned, and the first method, or else the first class, is not declared in a comment. -/
theorem issues_and_sentence_of_stripped
    (h : Text.lines stripped = (Text.lines text).map (stripComment · CSharp.commentMarker)) :
    (∀ maxParams, (longParameterList maxParams).check ⟨stripped, .csharp⟩ =
        (longParameterList maxParams).check ⟨text, .csharp⟩ ↔
      ∀ numbered ∈ (Snippet.mk text .csharp).numberedLines,
        (longParamsIssue? maxParams .csharp numbered.2 numbered.1).isSome = true →
          closesInCode numbered.1 = true) ∧
    (LoanTerms.mentionedIn text = false → Text.isBlank stripped = false →
      firstInCode (procedureName? .csharp) (Text.lines text) = true →
      ((Text.lines text).findSome? (procedureName? .csharp) = none →
        firstInCode (className? .csharp) (Text.lines text) = true) →
      describe ⟨stripped, .csharp⟩ = describe ⟨text, .csharp⟩) := by
  refine ⟨fun maxParams => ?_, describe_stripped h⟩
  rw [longParameterList_stripped maxParams h]
  exact filterMap_filter_eq_iff

theorem issues_and_sentence_of_stripped_behind_code :
    let text := "void Save(int a) { } // void Load(int b, int c)\n// done".toList
    let stripped := "void Save(int a) { } \n".toList
    Text.lines stripped = (Text.lines text).map (stripComment · CSharp.commentMarker) ∧
      (longParameterList 0).check ⟨stripped, .csharp⟩ =
        (longParameterList 0).check ⟨text, .csharp⟩ ∧
      describe ⟨stripped, .csharp⟩ = describe ⟨text, .csharp⟩ := by
  intro text stripped
  have h : Text.lines stripped =
      (Text.lines text).map (stripComment · CSharp.commentMarker) := by decide +kernel
  obtain ⟨hissues, hsentence⟩ := issues_and_sentence_of_stripped h
  refine ⟨h, (hissues 0).mpr (by decide +kernel), hsentence ?_ ?_ ?_ ?_⟩ <;> decide +kernel

/-- **A method in a comment is reported, and the sentence may be about it.** -/
theorem commented_method_reported :
    let long := "// void Save(int a, int b, int c, int d, int e, int f) { }".toList
    let code := "int x = 1; // void Save(int a) { }".toList
    (Text.lines long).map (stripComment · CSharp.commentMarker) = Text.lines [] ∧
      (longParameterList defaultMaxParams).check ⟨long, .csharp⟩ ≠
        (longParameterList defaultMaxParams).check ⟨[], .csharp⟩ ∧
      (Text.lines code).map (stripComment · CSharp.commentMarker) =
        Text.lines "int x = 1; ".toList ∧
      LoanTerms.mentionedIn code = false ∧
      describe ⟨code, .csharp⟩ = "Saves data to the database.".toList ∧
      describe ⟨"int x = 1; ".toList, .csharp⟩ = "Processes application logic.".toList := by
  decide +kernel

end Stripped
end LineLint
