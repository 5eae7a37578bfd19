import LineLint.Proofs.Pattern.Runs
import LineLint.Proofs.Report.TrailingComments

/-! # Where parameter lists end

Behind the name of a header, a parameter list begins with a parenthesis.  It is closed by the
parenthesis that answers this one (`Code.listUpToClose`): nested parentheses are counted, and
those in strings and comments are not.  The three headers do not count: each takes the text up to
the first closing parenthesis, wherever that stands (`Rule.params_of_listBehind`).

So a list is read whole if there is no closing parenthesis in it, and is cut short otherwise, and
then parameters may be lost (`Rule.params_of_listUpToClose`), as they are in a list with the
type of a column, a default value or an array (`Rule.params_of_nested_lists`).
-/
namespace LineLint
namespace Code

/-! ## Lists that close -/

/-- The text up to the parenthesis that closes a list, behind `depth` more that are open.  Strings
stand between quotes, and a comment leaves the list open; `inString` tells whether the text
starts inside a string. -/
def listUpToClose (quote : Char) (marker : List Char) (depth : Nat) (inString : Bool) :
    List Char → Option (List Char)
  | [] => none
  | c :: rest =>
    if c = quote then (listUpToClose quote marker depth (!inString) rest).map (c :: ·)
    else if inString then (listUpToClose quote marker depth true rest).map (c :: ·)
    else if marker.isPrefixOf (c :: rest) then none
    else if c = '(' then (listUpToClose quote marker (depth + 1) false rest).map (c :: ·)
    else if c = ')' then
      match depth with
      | 0 => some []
      | depth + 1 => (listUpToClose quote marker depth false rest).map (c :: ·)
    else (listUpToClose quote marker depth false rest).map (c :: ·)

/-- A list that closes is followed by the parenthesis that closes it. -/
theorem exists_behind_listUpToClose {quote : Char} {marker : List Char} {depth : Nat}
    {inString : Bool} {text list : List Char}
    (h : listUpToClose quote marker depth inString text = some list) :
    ∃ tail, text = list ++ ')' :: tail := by
  have hcons : ∀ {c : Char} {rest list : List Char} {found : Option (List Char)},
      (∀ {list}, found = some list → ∃ tail, rest = list ++ ')' :: tail) →
      found.map (c :: ·) = some list → ∃ tail, c :: rest = list ++ ')' :: tail := by
    intro c rest list found ih h
    obtain ⟨list, hfound, rfl⟩ := Option.map_eq_some_iff.mp h
    obtain ⟨tail, rfl⟩ := ih hfound
    exact ⟨tail, rfl⟩
  fun_induction listUpToClose quote marker depth inString text generalizing list with
  | case1 => cases h
  | case4 => cases h
  | case6 =>
    obtain rfl := Option.some.inj h
    exact ⟨_, rfl⟩
  | case2 | case3 | case5 | case7 | case8 =>
    rename_i ih
    exact hcons ih h

/-- The text in front of the first occurrence of a character. -/
theorem splitAtFirst_eq (close : Char) (text : List Char) :
    (splitAtFirst close text).map (·.1) =
      if close ∈ text then some (text.takeWhile (· != close)) else none := by
  induction text with
  | nil => rfl
  | cons c text ih =>
    by_cases hc : c = close
    · simp [splitAtFirst, hc]
    · have hmap : (splitAtFirst close (c :: text)).map (·.1) =
          ((splitAtFirst close text).map (·.1)).map (c :: ·) := by
        simp [splitAtFirst, hc, Function.comp_def]
      rw [hmap, ih]
      by_cases hmem : close ∈ text <;> simp [hmem, hc, Ne.symm hc]

/-- What follows the closing parenthesis does not matter for the text up to the first one. -/
theorem takeWhile_append_cons_close (close : Char) (list tail : List Char) :
    (list ++ close :: tail).takeWhile (· != close) = list.takeWhile (· != close) := by
  induction list with
  | nil => simp
  | cons c list ih => simp only [List.cons_append, List.takeWhile_cons, ih]

/-! ## Lists behind headers -/

/-- The text behind a parenthesis that a text begins with, white space apart. -/
def behindParenthesis (text : List Char) : Option (List Char) :=
  match Text.trimStart text with
  | '(' :: behind => some behind
  | _ => none

theorem trimStart_of_behindParenthesis {text behind : List Char}
    (h : behindParenthesis text = some behind) : Text.trimStart text = '(' :: behind := by
  rw [behindParenthesis] at h
  split at h
  · rename_i behind' htext
    rw [htext, Option.some.inj h]
  · cases h

namespace CSharp

open Pattern

/-- The first match on a line that declares a method. -/
def firstMethod? (line : List Char) : Option Match :=
  ((methodPattern.allMatches line).filter declares).head?

theorem methodHeader?_eq (line : List Char) :
    methodHeader? line = (firstMethod? line).map (headerOf line) :=
  List.head?_map

theorem name_headerOf (line : List Char) (m : Match) : (headerOf line m).name = m.part .name := by
  rw [headerOf]
  cases splitAtFirst ')' m.rest <;> rfl

theorem params_headerOf (line : List Char) (m : Match) :
    (headerOf line m).params = (splitAtFirst ')' m.rest).map (·.1) := by
  rw [headerOf]
  cases splitAtFirst ')' m.rest <;> rfl

/-- The text behind the opening parenthesis of the first method header. -/
def listBehind? (line : List Char) : Option (List Char) :=
  (firstMethod? line).map (·.rest)

theorem params_methodHeader? {line behind : List Char} {header : Header}
    (hheader : methodHeader? line = some header) (hlist : listBehind? line = some behind) :
    header.params = (splitAtFirst ')' behind).map (·.1) := by
  rw [methodHeader?_eq] at hheader
  obtain ⟨m, hm, rfl⟩ := Option.map_eq_some_iff.mp hheader
  rw [listBehind?, hm, Option.map_some] at hlist
  obtain rfl := Option.some.inj hlist
  exact params_headerOf line m

end CSharp

namespace VisualBasic

open Pattern

/-- The text behind the opening parenthesis that follows the name in a procedure header. -/
def listBehind? (line : List Char) : Option (List Char) :=
  (procedureName.find? line).bind fun m => behindParenthesis m.rest

theorem reach_parameterList {list : List Char} (h : ')' ∉ list) (before tail : List Char)
    (parts : List (Part × Cursor × Cursor)) :
    parameterList.reach ⟨⟨before, '(' :: (list ++ ')' :: tail)⟩, parts⟩ =
      [⟨⟨')' :: (list.reverse ++ '(' :: before), tail⟩,
        (.params, ⟨'(' :: before, list ++ ')' :: tail⟩,
          ⟨list.reverse ++ '(' :: before, ')' :: tail⟩) :: parts⟩] := by
  have hrun : Text.Run (· != ')') list (')' :: tail) := Text.run_of_not_mem h tail
  simp [parameterList, reach_append, reach_exactly, allBut, reach, Cursor.runEnd_run hrun]

theorem reach_parameterList_of_open {behind : List Char} (h : ')' ∉ behind) (before : List Char)
    (parts : List (Part × Cursor × Cursor)) :
    parameterList.reach ⟨⟨before, '(' :: behind⟩, parts⟩ = [] := by
  have hrun : Text.Run (· != ')') behind [] :=
    ⟨fun c hc => bne_iff_ne.mpr (ne_of_mem_of_not_mem hc h), by simp⟩
  have hend := Cursor.runEnd_run hrun ('(' :: before)
  rw [List.append_nil] at hend
  simp [parameterList, reach_append, reach_exactly, reach_exactly_nil, allBut, reach, hend]

/-- The text of a list that is reached goes up to the first closing parenthesis. -/
theorem params_parameterList {r : Reached} {behind : List Char}
    (hafter : r.place.after = '(' :: behind)
    (hparts : r.parts.find? (·.1 == .params) = none) :
    (((parameterList.reach r).head?.getD r).parts.find? (·.1 == .params)).map
        (fun found => found.2.1.textTo found.2.2) = (splitAtFirst ')' behind).map (·.1) := by
  obtain ⟨⟨before, after⟩, parts⟩ := r
  obtain rfl : after = '(' :: behind := hafter
  rw [splitAtFirst_eq]
  by_cases hclose : ')' ∈ behind
  · obtain ⟨list, tail, rfl, hlist⟩ := List.eq_append_cons_of_mem hclose
    rw [reach_parameterList hlist, if_pos hclose, (Text.run_of_not_mem hlist tail).takeWhile_eq]
    simp [Cursor.textTo]
  · rw [reach_parameterList_of_open hclose, if_neg hclose]
    simpa using hparts

/-- A procedure header goes on behind its name with white space, and with the list if there is
one. -/
theorem head?_reach_procedurePattern (r : Reached) :
    (procedurePattern.reach r).head? = (procedureName.reach r).head?.map fun s =>
      let t : Reached := { s with place := Cursor.runEnd Text.isSpace s.place.before s.place.after }
      (parameterList.reach t).head?.getD t := by
  have hspaces : ((procedureName ++ spaces).reach r).head? = (procedureName.reach r).head?.map
      fun s => { s with place := Cursor.runEnd Text.isSpace s.place.before s.place.after } := by
    rw [reach_append, ← List.head?_map, List.map_eq_flatMap]
    rfl
  rw [procedurePattern_eq, head?_reach_optional, hspaces, Option.map_map]
  rfl

theorem params_procedureHeader? {line behind : List Char} {kind : ProcedureKind} {header : Header}
    (hheader : procedureHeader? line = some (kind, header))
    (hlist : listBehind? line = some behind) :
    header.params = (splitAtFirst ')' behind).map (·.1) := by
  obtain ⟨m, hm, hread⟩ := Option.map_eq_some_iff.mp hheader
  rw [find?_of_isAnchored (by decide), at?, head?_reach_procedurePattern] at hm
  rw [listBehind?, find?_of_isAnchored (by decide), at?] at hlist
  cases hname : (procedureName.reach ⟨⟨[], line⟩, []⟩).head? with
  | none =>
    rw [hname] at hm
    cases hm
  | some s =>
    rw [hname] at hm hlist
    obtain rfl := Option.some.inj hm
    have hparams := (congrArg (·.2.params) hread).symm
    have homits : s.parts.find? (·.1 == .params) = none :=
      find?_parts_of_omits (p := procedureName) (by decide) (List.mem_of_mem_head? hname)
    have hafter : (Cursor.runEnd Text.isSpace s.place.before s.place.after).after =
        '(' :: behind := by
      rw [Cursor.after_runEnd]
      exact trimStart_of_behindParenthesis hlist
    exact hparams.trans (params_parameterList hafter homits)

end VisualBasic

namespace TransactSql

open Pattern

/-- The text behind the opening parenthesis that follows the name of a routine. -/
def listBehind? (line : List Char) : Option (List Char) :=
  (procedurePattern.find? line).bind fun m => behindParenthesis m.rest

theorem params_procedureHeader? {line behind : List Char} {header : Header}
    (hheader : procedureHeader? line = some header) (hlist : listBehind? line = some behind) :
    header.params = (splitAtFirst ')' behind).map (·.1) := by
  obtain ⟨m, hm, rfl⟩ := Option.map_eq_some_iff.mp hheader
  rw [listBehind?, hm, Option.bind_some] at hlist
  simp only [trimStart_of_behindParenthesis hlist, leadingParams]

end TransactSql
end Code

namespace Rule

open Code

/-! ## All dialects -/

/-- The text behind the opening parenthesis of a parameter list that follows the first callable
header on a line. -/
def listBehind? (dialect : Dialect) (line : List Char) : Option (List Char) :=
  match dialect with
  | .csharp => CSharp.listBehind? line
  | .vbnet => VisualBasic.listBehind? line
  | .sql => TransactSql.listBehind? line
  | .unknown => none

/-- The quotes that strings stand between. -/
def stringQuote : Dialect → Char
  | .sql => '\''
  | _ => '"'

/-- The marker that comments begin with. -/
def commentMarker : Dialect → List Char
  | .csharp => CSharp.commentMarker
  | .vbnet => VisualBasic.commentMarker
  | .sql => TransactSql.commentMarker
  | .unknown => []

/-- **A parameter list is read up to the first closing parenthesis**, in every dialect. -/
theorem params_of_listBehind {dialect : Dialect} {line behind : List Char} {header : Header}
    (hheader : callableHeader? dialect line = some header)
    (hlist : listBehind? dialect line = some behind) :
    header.params =
      if ')' ∈ behind then some (behind.takeWhile (· != ')')) else none := by
  rw [← splitAtFirst_eq]
  cases dialect with
  | csharp => exact CSharp.params_methodHeader? hheader hlist
  | vbnet =>
    obtain ⟨⟨kind, header⟩, hfound, rfl⟩ := Option.map_eq_some_iff.mp hheader
    exact VisualBasic.params_procedureHeader? hfound hlist
  | sql => exact TransactSql.params_procedureHeader? hheader hlist
  | unknown => cases hlist

/-- A prefix of a list has no more parameters than the list. -/
theorem countParams_le_of_prefix {front text : List Char} (h : front <+: text) :
    countParams front ≤ countParams text := by
  have hblank : Text.isBlank text = true → Text.isBlank front = true := fun hall =>
    List.all_eq_true.mpr fun c hc => List.all_eq_true.mp hall c (h.subset hc)
  have hcommas : front.count ',' ≤ text.count ',' := h.sublist.count_le ','
  rw [countParams, countParams]
  split
  · exact Nat.zero_le _
  · rw [if_neg (mt hblank ‹_›)]
    exact Nat.succ_le_succ hcommas

/-- **Parameter lists end at the first closing parenthesis.**  If the list behind a header closes
on the line, nested parentheses counted and those in strings and comments left out, the header
has the parameters up to the first closing parenthesis in it.  It has the whole list exactly if
there is no closing parenthesis in the list, be it of a nested pair or in a string; and it never
has more parameters than the whole list. -/
theorem params_of_listUpToClose {dialect : Dialect} {line behind list : List Char}
    {header : Header} (hheader : callableHeader? dialect line = some header)
    (hlist : listBehind? dialect line = some behind)
    (hcloses : listUpToClose (stringQuote dialect) (commentMarker dialect) 0 false behind =
      some list) :
    header.params = some (list.takeWhile (· != ')')) ∧
      (header.params = some list ↔ ')' ∉ list) ∧
      ∃ count, header.paramCount = some count ∧ count ≤ countParams list := by
  obtain ⟨tail, rfl⟩ := exists_behind_listUpToClose hcloses
  have hparams : header.params = some (list.takeWhile (· != ')')) := by
    rw [params_of_listBehind hheader hlist, if_pos (by simp), takeWhile_append_cons_close]
  refine ⟨hparams, ?_, countParams (list.takeWhile (· != ')')), ?_, ?_⟩
  · rw [hparams, Option.some_inj, List.takeWhile_eq_self_iff]
    exact ⟨fun hall hclose => bne_iff_ne.mp (hall ')' hclose) rfl,
      fun hclose c hc => bne_iff_ne.mpr (ne_of_mem_of_not_mem hc hclose)⟩
  · rw [Header.paramCount, hparams, Option.map_some]
  · exact countParams_le_of_prefix (List.takeWhile_prefix _)

theorem params_of_listUpToClose_quoted :
    let line := "void A(string a = \":)\", int b)".toList
    let list := "string a = \":)\", int b".toList
    (∃ header, callableHeader? .csharp line = some header ∧
      header.params = some (list.takeWhile (· != ')')) ∧
      (header.params = some list ↔ ')' ∉ list) ∧
      ∃ count, header.paramCount = some count ∧ count ≤ countParams list) ∧
    countParams list = 2 ∧ countParams (list.takeWhile (· != ')')) = 1 := by
  intro line list
  have hheader : callableHeader? .csharp line =
      some { name := "A".toList, params := some "string a = \":".toList, bodiless := false } := by
    decide +kernel
  have hlist : listBehind? .csharp line = some "string a = \":)\", int b)".toList := by
    decide +kernel
  exact ⟨⟨_, hheader, params_of_listUpToClose hheader hlist (by decide +kernel)⟩,
    by decide +kernel, by decide +kernel⟩

/-- **Lists with parentheses in them are cut short**: the type of a column, the type of a value and
an array each take the parameters behind them away. -/
theorem params_of_nested_lists :
    let sql := "CREATE PROCEDURE p(@a varchar(10), @b int)".toList
    let csharp := "void A(int a = default(int), int b)".toList
    let vbnet := "Sub A(x() As Integer, y)".toList
    (callableHeader? .sql sql).map (·.params) = some (some "@a varchar(10".toList) ∧
      (listBehind? .sql sql).bind (listUpToClose (stringQuote .sql) (commentMarker .sql) 0 false) =
        some "@a varchar(10), @b int".toList ∧
    (callableHeader? .csharp csharp).map (·.params) = some (some "int a = default(int".toList) ∧
      (listBehind? .csharp csharp).bind
          (listUpToClose (stringQuote .csharp) (commentMarker .csharp) 0 false) =
        some "int a = default(int), int b".toList ∧
    (callableHeader? .vbnet vbnet).map (·.params) = some (some "x(".toList) ∧
      (listBehind? .vbnet vbnet).bind
          (listUpToClose (stringQuote .vbnet) (commentMarker .vbnet) 0 false) =
        some "x() As Integer, y".toList := by
  decide +kernel

end Rule
end LineLint
