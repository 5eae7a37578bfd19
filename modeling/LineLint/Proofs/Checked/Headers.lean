import LineLint.Code.Nesting
import LineLint.Proofs.Checked.Matches
import LineLint.Proofs.Checked.Texts

/-! # Headers read with checks

The headers of the three languages, evaluated with every stretch of a match and every
cut of a line spelled out.  Each stretch is one that the pattern never does without,
and lines are cut at the ends of matches and at parentheses, so nothing fails: the
header found is the one that the function of the same name finds.
-/
namespace LineLint
namespace Checked

open Text Code

/-! ## Parameter lists -/

/-- Where a character first occurs in a text, in bytes. -/
def offsetOf? (close : Char) : List Char → Option Nat
  | [] => none
  | c :: rest => if c = close then some 0 else (offsetOf? close rest).map (c.utf8Size + ·)

/-- The text in front of the first `close`, if it occurs. -/
def frontOf (close : Char) (text : List Char) : Option (Option (List Char)) :=
  (offsetOf? close text).mapM fun i => takeBytes? i text

/-- The text behind what stands in front of the first closing character of one byte; nothing
if there is none. -/
def tailBehind (front : Option (List Char)) (text : List Char) : Option (List Char) :=
  match front with
  | some front => dropBytes? (byteLength front + 1) text
  | none => some []

theorem offsetOf?_eq (close : Char) (text : List Char) :
    offsetOf? close text = (splitAtFirst close text).map fun split => byteLength split.1 := by
  induction text with
  | nil => rfl
  | cons c rest ih =>
    rw [offsetOf?, splitAtFirst, ih]
    split
    · rfl
    · rw [Option.map_map, Option.map_map]
      rfl

theorem frontOf_eq (close : Char) (text : List Char) :
    frontOf close text = some ((splitAtFirst close text).map (·.1)) := by
  rw [frontOf, offsetOf?_eq]
  cases hsplit : splitAtFirst close text with
  | none => rfl
  | some split =>
    have htext := splitAtFirst_eq_some hsplit
    have hread := takeBytes?_append split.1 (close :: split.2)
    rw [← htext] at hread
    rw [Option.map_some, Option.mapM_some, hread]
    rfl

theorem tailBehind_eq {close : Char} (hclose : close.utf8Size = 1) (text : List Char) :
    tailBehind ((splitAtFirst close text).map (·.1)) text =
      some (((splitAtFirst close text).map (·.2)).getD []) := by
  cases hsplit : splitAtFirst close text with
  | none => rfl
  | some split =>
    have htext := splitAtFirst_eq_some hsplit
    have hread := dropBytes?_append (split.1 ++ [close]) split.2
    rw [byteLength_append, byteLength_cons, byteLength_nil, hclose, List.append_assoc,
      List.singleton_append, ← htext] at hread
    exact hread

/-! ## C# -/

namespace CSharp

/-- Whether a match declares a method. -/
def declares (m : Match) : Option Bool := do
  let type ← m.part? .type
  let name ← m.part? .name
  return !Code.CSharp.isNonDeclaration type && !Code.CSharp.isNonDeclaration name

/-- The header that a match on a line stands for. -/
def headerOf (line : List Char) (m : Match) : Option Header := do
  let name ← m.part? .name
  let behind ← dropBytes? m.stopOffset line
  let params ← frontOf ')' behind
  let tail ← tailBehind params behind
  return { name, params, bodiless := !line.contains '{' && (trimEnd tail).getLast? == some ';' }

/-- All method headers on a line. -/
def methodHeaders (line : List Char) : Option (List Header) := do
  let found ← (Code.CSharp.methodPattern.allMatches line).filterM declares
  found.mapM (headerOf line)

/-- The first method header on a line. -/
def methodHeader? (line : List Char) : Option (Option Header) := do
  let headers ← methodHeaders line
  return headers.head?

/-- The name that a class header on the line declares. -/
def className? (line : List Char) : Option (Option (List Char)) :=
  (Code.CSharp.classPattern.find? line).mapM (·.part? .name)

/-- The first method header on a line once its comment is removed. -/
def codeHeader? (line : List Char) : Option (Option Header) := do
  let code ← stripComment line Code.CSharp.commentMarker
  methodHeader? code

variable {line : List Char} {m : Match}

theorem declares_eq {p : Pattern} (h : p.Found line m) (htype : p.passes .type = true)
    (hname : p.passes .name = true) : declares m = some (Code.CSharp.declares m) := by
  rw [declares, h.part?_eq htype, h.part?_eq hname]
  rfl

theorem headerOf_eq (h : Code.CSharp.methodPattern.Found line m) :
    headerOf line m = some (Code.CSharp.headerOf line m) := by
  rw [headerOf, h.part?_eq rfl, h.dropBytes?_stop]
  simp only [Option.bind_eq_bind, Option.bind_some, frontOf_eq,
    tailBehind_eq (rfl : ')'.utf8Size = 1)]
  rw [Code.CSharp.headerOf]
  cases splitAtFirst ')' m.rest with
  | none => simp
  | some split => rfl

theorem methodHeaders_eq (line : List Char) :
    methodHeaders line = some (Code.CSharp.methodHeaders line) := by
  have hfound : ∀ m ∈ Code.CSharp.methodPattern.allMatches line,
      declares m = some (Code.CSharp.declares m) :=
    fun m hm => declares_eq (Pattern.found_of_mem_allMatches hm) rfl rfl
  have hheaders : ∀ m ∈ (Code.CSharp.methodPattern.allMatches line).filter Code.CSharp.declares,
      headerOf line m = some (Code.CSharp.headerOf line m) :=
    fun m hm => headerOf_eq (Pattern.found_of_mem_allMatches (List.mem_filter.mp hm).1)
  rw [methodHeaders, filterM_eq_some hfound]
  exact mapM_eq_some hheaders

theorem methodHeader?_eq (line : List Char) :
    methodHeader? line = some (Code.CSharp.methodHeader? line) := by
  rw [methodHeader?, methodHeaders_eq]
  rfl

theorem className?_eq (line : List Char) :
    className? line = some (Code.CSharp.className? line) :=
  optionMapM_eq_some fun _ hm => (Pattern.found_of_find? hm).part?_eq rfl

theorem codeHeader?_eq (line : List Char) :
    codeHeader? line = some (Code.CSharp.codeHeader? line) := by
  rw [codeHeader?, stripComment_eq]
  exact methodHeader?_eq _

end CSharp

/-! ## VB.NET -/

namespace VisualBasic

open Code.VisualBasic (ProcedureKind)

/-- The procedure header that a match stands for, with its kind. -/
def headerOf (m : Match) : Option (ProcedureKind × Header) := do
  let keyword ← m.part? .keyword
  let modifiers ← m.part? .modifiers
  let name ← m.part? .name
  return (ProcedureKind.ofKeyword keyword,
    { name
      params := m.part? .params
      bodiless := contains (asciiLower modifiers) "mustoverride".toList })

/-- The procedure header at the start of a line, with its kind. -/
def procedureHeader? (line : List Char) : Option (Option (ProcedureKind × Header)) :=
  (Code.VisualBasic.procedurePattern.find? line).mapM headerOf

/-- The header of a procedure that has a body. -/
def bodyHeader? (line : List Char) : Option (Option Header) := do
  match ← procedureHeader? line with
  | some (_, header) => return if header.bodiless then none else some header
  | none => return none

/-- The name that a class header at the start of the line declares. -/
def className? (line : List Char) : Option (Option (List Char)) :=
  match Code.VisualBasic.classPattern.find? line with
  | some m => do
    let keyword ← m.part? .keyword
    let name ← m.part? .name
    return if Code.VisualBasic.isClassKeyword keyword then some name else none
  | none => some none

/-- The kind of procedure that a line closes. -/
def procedureEnd? (line : List Char) : Option (Option ProcedureKind) :=
  (Code.VisualBasic.procedureEndPattern.find? line).mapM fun m => do
    let keyword ← m.part? .keyword
    return ProcedureKind.ofKeyword keyword

/-- What a line opens or closes. -/
def delta (line : List Char) : Option Delta :=
  if Code.VisualBasic.isCommentLine line then some ⟨0, 0⟩
  else do
    let code ← stripComment line Code.VisualBasic.commentMarker
    if Code.VisualBasic.blockEndPattern.occursIn code then return ⟨0, 1⟩
    let header ← bodyHeader? code
    if header.isSome || Code.VisualBasic.classPattern.occursIn code ||
        Code.VisualBasic.ifThenPattern.occursIn code then return ⟨1, 0⟩
    return ⟨0, 0⟩

theorem procedureHeader?_eq (line : List Char) :
    procedureHeader? line = some (Code.VisualBasic.procedureHeader? line) := by
  refine optionMapM_eq_some fun m hm => ?_
  have hfound := Pattern.found_of_find? hm
  rw [headerOf, hfound.part?_eq rfl, hfound.part?_eq rfl, hfound.part?_eq rfl]
  rfl

theorem bodyHeader?_eq (line : List Char) :
    bodyHeader? line = some (Code.VisualBasic.bodyHeader? line) := by
  rw [bodyHeader?, procedureHeader?_eq, Code.VisualBasic.bodyHeader?]
  cases Code.VisualBasic.procedureHeader? line with
  | none => rfl
  | some found => rfl

theorem className?_eq (line : List Char) :
    className? line = some (Code.VisualBasic.className? line) := by
  rw [className?, Code.VisualBasic.className?]
  cases hfind : Code.VisualBasic.classPattern.find? line with
  | none => rfl
  | some m =>
    have hfound := Pattern.found_of_find? hfind
    simp only [hfound.part?_eq (rfl : Code.VisualBasic.classPattern.passes .keyword = true),
      hfound.part?_eq (rfl : Code.VisualBasic.classPattern.passes .name = true)]
    rfl

theorem procedureEnd?_eq (line : List Char) :
    procedureEnd? line = some (Code.VisualBasic.procedureEnd? line) := by
  refine optionMapM_eq_some fun m hm => ?_
  rw [(Pattern.found_of_find? hm).part?_eq rfl]
  rfl

theorem delta_eq (line : List Char) : delta line = some (Code.VisualBasic.delta line) := by
  rw [delta, Code.VisualBasic.delta, stripComment_eq]
  split
  · rfl
  · simp only [Option.bind_eq_bind, Option.bind_some, bodyHeader?_eq]
    rw [Code.VisualBasic.opensBlock]
    split
    · rfl
    · split <;> rfl

end VisualBasic

/-! ## T-SQL -/

namespace TransactSql

/-- The parameter list at the start of a text. -/
def leadingParams (text : List Char) : Option (Option (List Char)) :=
  match text with
  | '(' :: inner => frontOf ')' inner
  | '@' :: _ =>
    match Code.TransactSql.asPattern.find? text with
    | some m => (takeBytes? m.startOffset text).map some
    | none => (takeBytes? (byteLength text) text).map some
  | _ => some none

/-- The header of a procedure or function on a line. -/
def procedureHeader? (line : List Char) : Option (Option Header) :=
  (Code.TransactSql.procedurePattern.find? line).mapM fun m => do
    let name ← m.part? .name
    let behind ← dropBytes? m.stopOffset line
    let params ← leadingParams (trimStart behind)
    return { name, params, bodiless := false }

theorem leadingParams_eq (text : List Char) :
    leadingParams text = some (Code.TransactSql.leadingParams text) := by
  fun_cases Code.TransactSql.leadingParams text with
  | case1 inner => exact frontOf_eq ')' inner
  | case2 rest m hfind =>
    simp only [leadingParams, hfind, (Pattern.found_of_find? hfind).takeBytes?_start,
      Option.map_some]
  | case3 rest hfind =>
    have hall := takeBytes?_append ('@' :: rest) []
    rw [List.append_nil] at hall
    simp only [leadingParams, hfind, hall, Option.map_some]
  | case4 text h1 h2 =>
    rw [leadingParams]
    · exact h1
    · exact h2

theorem procedureHeader?_eq (line : List Char) :
    procedureHeader? line = some (Code.TransactSql.procedureHeader? line) := by
  refine optionMapM_eq_some fun m hm => ?_
  have hfound := Pattern.found_of_find? hm
  rw [hfound.part?_eq rfl, hfound.dropBytes?_stop]
  simp only [Option.bind_eq_bind, Option.bind_some, leadingParams_eq]
  rfl

end TransactSql
end Checked
end LineLint
