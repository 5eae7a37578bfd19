import LineLint.Proofs.Layout.Lines
import LineLint.Proofs.Pattern.Keywords
import LineLint.Proofs.Pattern.Sweep
import LineLint.Proofs.Report.Parameters

/-! # Headers that are written out

A header line is made of parts: white space, modifiers, a type or the keyword of a procedure, a
name, a parameter list, and anything behind it (`Code.CSharp.MethodLine`,
`Code.VisualBasic.ProcedureLine`).  All of them are read back as they were written
(`Code.headers_read_back`).

The pattern for methods knows nothing of modifiers.  It looks for a type, a name and a parenthesis,
and a modifier looks like a type.  But what follows it is not a name with a parenthesis behind
it: it is another modifier or the type, and more letters stand behind the white space that
follows (`Code.CSharp.at?_word`).  So the search passes one modifier after the other
(`Code.CSharp.exists_findBehind_modifiers`), and a pattern that takes them with it finds the same
headers (`Code.CSharp.methodHeaders_eq_modified`).

The pattern for procedures takes modifiers one by one and would also be content with fewer of
them, but then the keyword is not found.
-/
namespace LineLint
namespace Code

open Pattern
open Cursor (touchesWord)
open Text (Run isSpace)

/-- The text is read up to the first parenthesis that closes. -/
theorem splitAtFirst_of_notMem {close : Char} {front : List Char} (h : close ∉ front)
    (back : List Char) : splitAtFirst close (front ++ close :: back) = some (front, back) := by
  induction front with
  | nil => rw [List.nil_append, splitAtFirst, if_pos rfl]
  | cons c front ih =>
    rw [List.mem_cons, not_or] at h
    rw [List.cons_append, splitAtFirst, if_neg (Ne.symm h.1), ih h.2]
    rfl

theorem touchesWord_reverse_spaces {indent : List Char} (h : ∀ c ∈ indent, isSpace c = true) :
    touchesWord indent.reverse = false := by
  cases indent with
  | nil => rfl
  | cons c indent =>
    have hgap := touchesWord_reverse_gap ⟨List.cons_ne_nil c indent, h⟩ []
    rwa [List.append_nil] at hgap

/-- An identifier ends where a parenthesis stands, with white space in front or without. -/
theorem continuesIdentifier_gap {gap : List Char} (h : ∀ c ∈ gap, isSpace c = true)
    (rest : List Char) : ∀ c ∈ (gap ++ '(' :: rest).head?, continuesIdentifier c = false := by
  cases gap with
  | nil => simp; decide
  | cons c gap => exact IsGap.stops (by decide) ⟨List.cons_ne_nil c gap, h⟩ _

namespace CSharp

variable {before rest type spacing word name gap : List Char} {parts : List (Part × Cursor × Cursor)}

/-! ## Types and names -/

/-- The modifiers that stand in front of methods. -/
def methodModifiers : List String :=
  ["public", "private", "protected", "internal", "static", "async", "virtual", "override",
   "sealed", "partial", "extern", "abstract", "unsafe"]

/-- Whether a text can stand for a type. -/
structure IsType (text : List Char) : Prop where
  ne_nil : text ≠ []
  starts : ∀ c ∈ text.head?, startsIdentifier c = true
  continues : ∀ c ∈ text, continuesType c = true

instance (text : List Char) : Decidable (IsType text) :=
  decidable_of_iff (text ≠ [] ∧ text.head?.all startsIdentifier = true ∧
      text.all continuesType = true)
    ⟨fun ⟨hne, hstarts, hcontinues⟩ =>
        ⟨hne, (Option.all_eq_true _ _).mp hstarts, List.all_eq_true.mp hcontinues⟩,
      fun ⟨hne, hstarts, hcontinues⟩ =>
        ⟨hne, (Option.all_eq_true _ _).mpr hstarts, List.all_eq_true.mpr hcontinues⟩⟩

theorem isSpace_of_continuesType {c : Char} (h : continuesType c = true) : isSpace c = false :=
  Text.not_isSpace_of_solid (by decide) h

theorem isType_of_isIdentifier {text : List Char} (h : IsIdentifier text) : IsType text where
  ne_nil := h.ne_nil
  starts := h.starts
  continues c hc := by rw [continuesType, h.continues c hc, Bool.true_or]

/-- A type begins with a letter, whatever follows. -/
theorem IsType.starts_append (h : IsType type) (rest : List Char) :
    ∀ c ∈ (type ++ rest).head?, startsIdentifier c = true := by
  rw [List.head?_append_of_ne_nil type h.ne_nil]
  exact h.starts

theorem IsType.touchesWord (h : IsType type) (rest : List Char) :
    touchesWord (type ++ rest) = true := by
  obtain ⟨c, more, rfl⟩ := List.exists_cons_of_ne_nil h.ne_nil
  exact isWordChar_of_continuesIdentifier (continuesIdentifier_of_startsIdentifier (h.starts c rfl))

/-- A type takes all characters that it can go on with. -/
theorem reach_type (h : IsType type) (hrest : ∀ c ∈ rest.head?, continuesType c = false) :
    (char startsIdentifier ++ run continuesType).reach ⟨⟨before, type ++ rest⟩, parts⟩ =
      [⟨⟨type.reverse ++ before, rest⟩, parts⟩] :=
  reach_char_run h.ne_nil h.starts ⟨h.continues, hrest⟩

/-- A name with the parenthesis behind it. -/
def methodName : Pattern :=
  named .name identifier ++ (spaces ++ exactly '(')

/-- Behind a type, a name with a parenthesis is looked for. -/
theorem reach_methodPattern (hbefore : touchesWord before = false) (htype : IsType type)
    (hspacing : IsGap spacing) (hrest : ∀ c ∈ rest.head?, isSpace c = false) :
    methodPattern.reach ⟨⟨before, type ++ (spacing ++ rest)⟩, []⟩ =
      methodName.reach ⟨⟨spacing.reverse ++ (type.reverse ++ before), rest⟩,
        [(.type, ⟨before, type ++ (spacing ++ rest)⟩,
          ⟨type.reverse ++ before, spacing ++ rest⟩)]⟩ := by
  have hstops : ∀ c ∈ (spacing ++ rest).head?, continuesType c = false :=
    hspacing.stops (by decide) rest
  rw [methodPattern, reach_append_assoc, reach_append_assoc, ← methodName, reach_append,
    reach_append, reach_append, reach_edge hbefore (htype.touchesWord _),
    List.flatMap_singleton, reach_named, reach_type htype hstops, List.map_singleton,
    List.flatMap_singleton, reach_gap hspacing hrest, List.flatMap_singleton]

theorem reach_parenthesis (h : Run isSpace gap rest) :
    (spaces ++ exactly '(').reach ⟨⟨before, gap ++ rest⟩, parts⟩ =
      (exactly '(').reach ⟨⟨gap.reverse ++ before, rest⟩, parts⟩ := by
  rw [reach_append]
  simp only [spaces, reach, Cursor.runEnd_run h, List.flatMap_singleton]

theorem reach_methodName (hname : IsIdentifier name) (hgap : ∀ c ∈ gap, isSpace c = true)
    (before rest : List Char) (parts : List (Part × Cursor × Cursor)) :
    methodName.reach ⟨⟨before, name ++ (gap ++ '(' :: rest)⟩, parts⟩ =
      [⟨⟨'(' :: (gap.reverse ++ (name.reverse ++ before)), rest⟩,
        (.name, ⟨before, name ++ (gap ++ '(' :: rest)⟩,
          ⟨name.reverse ++ before, gap ++ '(' :: rest⟩) :: parts⟩] := by
  have hstops := continuesIdentifier_gap hgap rest
  have hrun : Run isSpace gap ('(' :: rest) := ⟨hgap, by simp; decide⟩
  rw [methodName, reach_append, reach_named, reach_identifier hname hstops, List.map_singleton,
    List.flatMap_singleton, reach_parenthesis hrun, reach_exactly, if_pos rfl]

/-- **A type is not a name with a parenthesis behind it**, if letters follow the white space
behind it. -/
theorem reach_methodName_of_isType (htype : IsType type) (hspacing : IsGap spacing)
    (hrest : ∀ c ∈ rest.head?, startsIdentifier c = true) :
    methodName.reach ⟨⟨before, type ++ (spacing ++ rest)⟩, parts⟩ = [] := by
  obtain ⟨taken, left, rfl, hrun⟩ := Text.exists_run continuesIdentifier type
  have htaken : IsIdentifier taken := by
    refine ⟨?_, fun c hc => ?_, hrun.all⟩
    · rintro rfl
      obtain ⟨c, more, rfl⟩ := List.exists_cons_of_ne_nil htype.ne_nil
      have hstarts := continuesIdentifier_of_startsIdentifier (htype.starts c rfl)
      rw [hrun.stops c rfl] at hstarts
      cases hstarts
    · obtain ⟨d, more, rfl⟩ := List.head?_eq_some_iff.mp hc
      exact htype.starts _ rfl
  have hsolid : ∀ c ∈ rest.head?, isSpace c = false := fun c hc =>
    isSpace_of_continuesIdentifier (continuesIdentifier_of_startsIdentifier (hrest c hc))
  rw [methodName, reach_append, reach_named, List.append_assoc]
  cases left with
  | nil =>
    -- the whole type is an identifier, and letters stand where the parenthesis should be
    have hstops : ∀ c ∈ (spacing ++ rest).head?, continuesIdentifier c = false :=
      hspacing.stops (by decide) rest
    rw [List.nil_append, reach_identifier htaken hstops, List.map_singleton,
      List.flatMap_singleton, reach_parenthesis ⟨hspacing.2, hsolid⟩]
    cases rest with
    | nil => exact reach_exactly_nil _ _ _
    | cons c rest =>
      rw [reach_exactly, if_neg]
      rintro rfl
      exact absurd (hrest '(' rfl) (by decide)
  | cons d left =>
    -- the type goes on with a character that no identifier has
    have hd : continuesType d = true := htype.continues d (by simp)
    have hstay : Run isSpace [] (d :: left ++ (spacing ++ rest)) := by
      refine ⟨List.forall_mem_nil _, fun c hc => ?_⟩
      obtain rfl : d = c := by simpa using hc
      exact isSpace_of_continuesType hd
    have hstops : ∀ c ∈ (d :: left ++ (spacing ++ rest)).head?, continuesIdentifier c = false :=
      fun c hc => hrun.stops c hc
    rw [reach_identifier htaken hstops, List.map_singleton,
      List.flatMap_singleton, ← List.nil_append (d :: left ++ _), reach_parenthesis hstay,
      List.cons_append, reach_exactly, if_neg]
    rintro rfl
    exact absurd hd (by decide)

/-! ## Modifiers -/

/-- Whether a text begins with a type, white space and a letter. -/
def OpensWithType (text : List Char) : Prop :=
  ∃ type spacing rest, IsType type ∧ IsGap spacing ∧
    (∀ c ∈ rest.head?, startsIdentifier c = true) ∧ text = type ++ (spacing ++ rest)

namespace OpensWithType

theorem starts (h : OpensWithType rest) : ∀ c ∈ rest.head?, startsIdentifier c = true := by
  obtain ⟨type, spacing, rest, htype, -, -, rfl⟩ := h
  exact htype.starts_append _

theorem reach_methodName (h : OpensWithType rest) :
    methodName.reach ⟨⟨before, rest⟩, parts⟩ = [] := by
  obtain ⟨type, spacing, rest, htype, hspacing, hrest, rfl⟩ := h
  exact reach_methodName_of_isType htype hspacing hrest

end OpensWithType

/-- A word looks like a type. -/
theorem opensWithType_word (hword : IsIdentifier word) (hspacing : IsGap spacing)
    (h : ∀ c ∈ rest.head?, startsIdentifier c = true) :
    OpensWithType (word ++ (spacing ++ rest)) :=
  ⟨word, spacing, rest, isType_of_isIdentifier hword, hspacing, h, rfl⟩

/-- **No method header begins with a word** that stands in front of a modifier or a type. -/
theorem at?_word (hword : IsIdentifier word) (hspacing : IsGap spacing) (h : OpensWithType rest)
    (hbefore : touchesWord before = false) :
    methodPattern.at? ⟨before, word ++ (spacing ++ rest)⟩ = none := by
  have hsolid : ∀ c ∈ rest.head?, isSpace c = false := fun c hc =>
    isSpace_of_continuesIdentifier (continuesIdentifier_of_startsIdentifier (h.starts c hc))
  rw [at?, reach_methodPattern hbefore (isType_of_isIdentifier hword) hspacing hsolid,
    h.reach_methodName]
  rfl

/-- No method header begins inside a word. -/
theorem at?_of_touchesWord {after : List Char} (hbefore : touchesWord before = true)
    (hafter : touchesWord after = true) : methodPattern.at? ⟨before, after⟩ = none := by
  have hedge : edge.reach ⟨⟨before, after⟩, []⟩ = [] := by
    simp [reach, Cursor.atEdge, hbefore, hafter]
  rw [at?, methodPattern]
  simp only [reach_append, hedge, List.flatMap_nil]
  rfl

theorem findBehind_spaces (h : ∀ c ∈ gap, isSpace c = true) (before rest : List Char) :
    methodPattern.findBehind before (gap ++ rest) =
      methodPattern.findBehind (gap.reverse ++ before) rest := by
  refine findBehind_append_of_none fun passed left hgap hne => ?_
  obtain ⟨c, left, rfl⟩ := List.exists_cons_of_ne_nil hne
  exact at?_space (by decide) (h c (hgap ▸ by simp)) _ _

/-- **The search goes past a word** that stands in front of a modifier or a type. -/
theorem findBehind_word (hword : IsIdentifier word) (hspacing : IsGap spacing)
    (h : OpensWithType rest) (hbefore : touchesWord before = false) :
    methodPattern.findBehind before (word ++ (spacing ++ rest)) =
      methodPattern.findBehind (spacing.reverse ++ (word.reverse ++ before)) rest := by
  have hcontinues := hword.continues
  rw [findBehind_append_of_none, findBehind_spaces hspacing.2]
  intro passed left hspelling hne
  by_cases hpassed : passed = []
  · obtain rfl : left = word := by rw [hspelling, hpassed, List.nil_append]
    rw [hpassed]
    exact at?_word hword hspacing h hbefore
  · rw [hspelling] at hcontinues
    refine at?_of_touchesWord ?_ ?_
    · exact touchesWord_append (mt List.reverse_eq_nil_iff.mp hpassed)
        (fun c hc => hcontinues c (List.mem_append_left _ (List.mem_reverse.mp hc))) _
    · exact touchesWord_append hne (fun c hc => hcontinues c (List.mem_append_right _ hc)) _

theorem isIdentifier_modifier (modifier : Modifier methodModifiers) :
    IsIdentifier modifier.spelling :=
  modifier.isIdentifier (by decide)

theorem opensWithType_modifiers (modifiers : List (Modifier methodModifiers))
    (h : OpensWithType rest) : OpensWithType (modifiers.flatMap Modifier.text ++ rest) := by
  induction modifiers with
  | nil => exact h
  | cons modifier modifiers ih =>
    rw [List.flatMap_cons, Modifier.text, List.append_assoc, List.append_assoc]
    exact opensWithType_word (isIdentifier_modifier modifier) modifier.isGap_gap ih.starts

/-- **The search goes past all modifiers**, and then no word stands in front. -/
theorem exists_findBehind_modifiers (modifiers : List (Modifier methodModifiers))
    (h : OpensWithType rest) (hbefore : touchesWord before = false) :
    ∃ before', touchesWord before' = false ∧
      methodPattern.findBehind before (modifiers.flatMap Modifier.text ++ rest) =
        methodPattern.findBehind before' rest := by
  induction modifiers generalizing before with
  | nil => exact ⟨before, hbefore, rfl⟩
  | cons modifier modifiers ih =>
    rw [List.flatMap_cons, Modifier.text, List.append_assoc, List.append_assoc,
      findBehind_word (isIdentifier_modifier modifier) modifier.isGap_gap
        (opensWithType_modifiers modifiers h) hbefore]
    exact ih (touchesWord_reverse_gap modifier.isGap_gap _)

/-! ## Methods -/

/-- A line that declares a method. -/
structure MethodLine where
  /-- The white space in front. -/
  indent : List Char
  /-- The modifiers. -/
  modifiers : List (Modifier methodModifiers)
  /-- The type. -/
  type : List Char
  /-- The white space behind the type. -/
  spacing : List Char
  /-- The name. -/
  name : List Char
  /-- The white space behind the name, which may be missing. -/
  gap : List Char
  /-- The text of the parameter list. -/
  params : List Char
  /-- What stands behind the parameter list. -/
  tail : List Char
  isSpace_indent : ∀ c ∈ indent, isSpace c = true
  isType_type : IsType type
  isGap_spacing : IsGap spacing
  isIdentifier_name : IsIdentifier name
  isSpace_gap : ∀ c ∈ gap, isSpace c = true
  close_notMem : ')' ∉ params
  type_declares : isNonDeclaration type = false
  name_declares : isNonDeclaration name = false

namespace MethodLine
variable (line : MethodLine)

/-- The line from its type on. -/
def declaration : List Char :=
  line.type ++ (line.spacing ++ (line.name ++
    (line.gap ++ '(' :: (line.params ++ ')' :: line.tail))))

/-- The text of the line. -/
def text : List Char :=
  line.indent ++ (line.modifiers.flatMap Modifier.text ++ line.declaration)

theorem opensWithType_declaration : OpensWithType line.declaration :=
  ⟨line.type, line.spacing, _, line.isType_type, line.isGap_spacing,
    (isType_of_isIdentifier line.isIdentifier_name).starts_append _, rfl⟩

/-- The first match on the line is the one from its type on. -/
theorem exists_find? : ∃ m, methodPattern.find? line.text = some m ∧ m.part .type = line.type ∧
    m.part .name = line.name ∧ m.rest = line.params ++ ')' :: line.tail := by
  obtain ⟨before, hbefore, hfind⟩ := exists_findBehind_modifiers line.modifiers
    line.opensWithType_declaration (touchesWord_reverse_spaces line.isSpace_indent)
  have hsolid : ∀ c ∈ (line.name ++ (line.gap ++ '(' :: (line.params ++ ')' :: line.tail))).head?,
      isSpace c = false :=
    head_solid line.isIdentifier_name.ne_nil line.isIdentifier_name.continues _
  have hat := reach_methodPattern hbefore line.isType_type line.isGap_spacing hsolid
  rw [reach_methodName line.isIdentifier_name line.isSpace_gap] at hat
  rw [find?, text, findBehind_spaces line.isSpace_indent, List.append_nil, hfind]
  refine ⟨_, findBehind_of_at? (by rw [at?, declaration, hat]; rfl), ?_, ?_, rfl⟩
  · simp [Match.part, Match.part?, Cursor.textTo_append]
  · simp [Match.part, Match.part?, Cursor.textTo_append]

/-- **A method is read back.** -/
theorem methodHeader?_text : methodHeader? line.text =
    some { name := line.name
           params := some line.params
           bodiless := decide ('{' ∉ line.text ∧
             (Text.trimEnd line.tail).getLast? = some ';') } := by
  obtain ⟨m, hfind, htype, hname, hrest⟩ := line.exists_find?
  have hdeclares : declares m = true := by
    rw [declares, htype, hname, line.type_declares, line.name_declares]
    rfl
  have hfirst : firstMethod? line.text = some m := by
    rw [← head?_allMatches] at hfind
    obtain ⟨more, hmore⟩ := List.head?_eq_some_iff.mp hfind
    rw [firstMethod?, hmore, List.filter_cons_of_pos hdeclares, List.head?_cons]
  rw [methodHeader?_eq, hfirst, Option.map_some, headerOf, hrest,
    splitAtFirst_of_notMem line.close_notMem, hname]
  simp [Bool.decide_and, Bool.beq_eq_decide_eq]

end MethodLine
end CSharp

namespace VisualBasic

/-! ## Procedures -/

/-- The keyword of procedures of a kind. -/
def ProcedureKind.keyword : ProcedureKind → String
  | .sub => "Sub"
  | .function => "Function"

/-- A line that declares a procedure. -/
structure ProcedureLine where
  /-- The white space in front. -/
  indent : List Char
  /-- The modifiers. -/
  modifiers : List (Modifier procedureModifiers)
  /-- The kind of the procedure. -/
  kind : ProcedureKind
  /-- How the keyword is spelled. -/
  keyword : List Char
  /-- The white space behind the keyword. -/
  spacing : List Char
  /-- The name. -/
  name : List Char
  /-- The white space behind the name, which may be missing. -/
  gap : List Char
  /-- The text of the parameter list. -/
  params : List Char
  /-- What stands behind the parameter list. -/
  tail : List Char
  isSpace_indent : ∀ c ∈ indent, isSpace c = true
  keyword_same : Text.sameIgnoringCase kind.keyword.toList keyword = true
  isGap_spacing : IsGap spacing
  isIdentifier_name : IsIdentifier name
  isSpace_gap : ∀ c ∈ gap, isSpace c = true
  close_notMem : ')' ∉ params

/-- The keyword tells the kind. -/
theorem ofKeyword_of_same {kind : ProcedureKind} {keyword : List Char}
    (h : Text.sameIgnoringCase kind.keyword.toList keyword = true) :
    ProcedureKind.ofKeyword keyword = kind := by
  have hlower := (Text.sameIgnoringCase_iff _ _).mp h
  rw [ProcedureKind.ofKeyword, Text.sameIgnoringCase, ← hlower]
  cases kind <;> decide

/-- What a modifier says about the body is said by its keyword. -/
theorem contains_modifier (modifier : Modifier procedureModifiers) :
    Text.contains (Text.asciiLower modifier.spelling) "mustoverride".toList =
      decide (modifier.keyword = "MustOverride") := by
  have hkeywords : ∀ keyword ∈ procedureModifiers,
      Text.contains (Text.asciiLower keyword.toList) "mustoverride".toList =
        decide (keyword = "MustOverride") := by decide
  rw [← (Text.sameIgnoringCase_iff _ _).mp modifier.same]
  exact hkeywords modifier.keyword modifier.keyword_mem

/-- White space in front of a text does not matter. -/
theorem contains_gap_append {needle gap : List Char} (hneedle : Text.startsSolid needle = true)
    (hgap : ∀ c ∈ gap, isSpace c = true) (rest : List Char) :
    Text.contains (Text.asciiLower (gap ++ rest)) needle =
      Text.contains (Text.asciiLower rest) needle := by
  induction gap with
  | nil => rfl
  | cons c gap ih =>
    obtain ⟨hc, hgap⟩ := List.forall_mem_cons.mp hgap
    rw [List.cons_append, Text.asciiLower_cons,
      Text.contains_cons_space hneedle ((Text.caseBlind_isSpace c).trans hc), ih hgap]

/-- **Modifiers say that there is no body if one of them is `MustOverride`.** -/
theorem contains_modifiers (modifiers : List (Modifier procedureModifiers)) :
    Text.contains (Text.asciiLower (modifiers.flatMap Modifier.text)) "mustoverride".toList =
      decide (∃ modifier ∈ modifiers, modifier.keyword = "MustOverride") := by
  induction modifiers with
  | nil => decide
  | cons modifier modifiers ih =>
    obtain ⟨c, gap, hgap⟩ := List.exists_cons_of_ne_nil modifier.isGap_gap.1
    obtain ⟨hc, hspaces⟩ := List.forall_mem_cons.mp (hgap ▸ modifier.isGap_gap.2)
    have hbreak : c.toLower ∉ "mustoverride".toList := by
      intro hmem
      have hsolid : "mustoverride".toList.all (!isSpace ·) = true := by decide
      have hspace := List.all_eq_true.mp hsolid _ hmem
      rw [Text.caseBlind_isSpace c, hc] at hspace
      cases hspace
    rw [List.flatMap_cons, Modifier.text, hgap, List.append_assoc, List.cons_append,
      Text.asciiLower_append, Text.asciiLower_cons, Text.contains_append_cons (by decide) hbreak,
      contains_modifier, contains_gap_append (by decide) hspaces, ih]
    simp [Bool.decide_or]

/-- The keyword and the name. -/
def procedureHead : Pattern :=
  named .keyword (words ["Sub", "Function"]) ++ (Pattern.gap ++ named .name identifier)

theorem reach_procedureName (r : Reached) : procedureName.reach r =
    ((textStart ++ spaces ++ named .modifiers (repeated (words procedureModifiers ++
      Pattern.gap))).reach r).flatMap procedureHead.reach := by
  rw [procedureName, reach_append_assoc, reach_append_assoc, reach_append, procedureHead]

namespace ProcedureLine
variable (line : ProcedureLine)

/-- The line from the parenthesis on. -/
def list : List Char :=
  '(' :: (line.params ++ ')' :: line.tail)

/-- The line from the keyword on. -/
def declaration : List Char :=
  line.keyword ++ (line.spacing ++ (line.name ++ (line.gap ++ line.list)))

/-- The text of the line. -/
def text : List Char :=
  line.indent ++ (line.modifiers.flatMap Modifier.text ++ line.declaration)

theorem spells_keyword : Spells line.kind.keyword line.keyword :=
  spells_of_sameIgnoringCase line.keyword_same

theorem keyword_ne_nil : line.keyword ≠ [] :=
  line.spells_keyword.ne_nil (by cases line.kind <;> decide)

/-- All modifiers are taken at first, since the keyword is none. -/
theorem exists_reach_modifiers : ∃ start stop more,
    (textStart ++ spaces ++ named .modifiers (repeated (words procedureModifiers ++
        Pattern.gap))).reach ⟨⟨[], line.text⟩, []⟩ =
      ⟨⟨stop, line.declaration⟩,
        [(.modifiers, ⟨start, line.modifiers.flatMap Modifier.text ++ line.declaration⟩,
          ⟨stop, line.declaration⟩)]⟩ :: more := by
  have hletters : ∀ keyword ∈ procedureModifiers,
      keyword.toList ≠ [] ∧ keyword.toList.all Char.isAlpha = true := by decide
  have hkeyword : line.kind.keyword.toList.all Char.isAlpha = true ∧
      ∀ other ∈ procedureModifiers, Differ line.kind.keyword other := by
    cases line.kind <;> decide
  have hnone : ∀ before, (words procedureModifiers).reach ⟨⟨before, line.declaration⟩, []⟩ = [] :=
    fun before => reach_words_of_differ hkeyword.1
      (fun other hother => ⟨(hletters other hother).2, hkeyword.2 other hother⟩)
      line.spells_keyword
  have hsolid : ∀ c ∈ line.declaration.head?, isSpace c = false :=
    head_solid line.keyword_ne_nil (line.spells_keyword.continues hkeyword.1) _
  have hindent : Run isSpace line.indent
      (line.modifiers.flatMap Modifier.text ++ line.declaration) :=
    ⟨line.isSpace_indent, head_modifiers hletters line.modifiers hsolid⟩
  obtain ⟨more, hmore⟩ := exists_reach_repeated hletters (by decide) line.modifiers (by decide)
    hnone hsolid (line.indent.reverse ++ [])
  have hstart : (textStart ++ spaces).reach ⟨⟨[], line.text⟩, []⟩ =
      [⟨⟨line.indent.reverse ++ [], line.modifiers.flatMap Modifier.text ++ line.declaration⟩,
        []⟩] := by
    rw [reach_append]
    simp [spaces, reach, text, Cursor.runEnd_run hindent]
  rw [reach_append, hstart, List.flatMap_singleton, reach_named, hmore, List.map_cons]
  exact ⟨_, _, _, rfl⟩

theorem reach_procedureHead (before : List Char) (parts : List (Part × Cursor × Cursor)) :
    ∃ before', procedureHead.reach ⟨⟨before, line.declaration⟩, parts⟩ =
      [⟨⟨line.name.reverse ++ before', line.gap ++ line.list⟩,
        (.name, ⟨before', line.name ++ (line.gap ++ line.list)⟩,
          ⟨line.name.reverse ++ before', line.gap ++ line.list⟩) ::
        (.keyword, ⟨before, line.keyword ++ (line.spacing ++ (line.name ++
            (line.gap ++ line.list)))⟩,
          ⟨line.keyword.reverse ++ before,
            line.spacing ++ (line.name ++ (line.gap ++ line.list))⟩) :: parts⟩] := by
  have hname : ∀ c ∈ (line.name ++ (line.gap ++ line.list)).head?, isSpace c = false :=
    head_solid line.isIdentifier_name.ne_nil line.isIdentifier_name.continues _
  have hstops : ∀ c ∈ (line.gap ++ line.list).head?, continuesIdentifier c = false :=
    continuesIdentifier_gap line.isSpace_gap _
  have hkeyword : line.kind.keyword ∈ ["Sub", "Function"] := by cases line.kind <;> decide
  refine ⟨line.spacing.reverse ++ (line.keyword.reverse ++ before), ?_⟩
  rw [procedureHead, reach_append, reach_named, declaration,
    reach_words (by decide) (by decide) hkeyword line.spells_keyword, List.map_singleton,
    List.flatMap_singleton, reach_append, reach_gap line.isGap_spacing hname,
    List.flatMap_singleton, reach_named, reach_identifier line.isIdentifier_name hstops,
    List.map_singleton]

/-- The match on the line. -/
theorem exists_find? : ∃ m, procedurePattern.find? line.text = some m ∧
    m.part .modifiers = line.modifiers.flatMap Modifier.text ∧ m.part .keyword = line.keyword ∧
    m.part .name = line.name ∧ m.part? .params = some line.params := by
  obtain ⟨start, stop, more, hmodifiers⟩ := line.exists_reach_modifiers
  obtain ⟨before, hhead⟩ := line.reach_procedureHead stop _
  have hname := reach_procedureName ⟨⟨[], line.text⟩, []⟩
  rw [hmodifiers, List.flatMap_cons, hhead, List.singleton_append] at hname
  have hgap : Run isSpace line.gap line.list := ⟨line.isSpace_gap, by simp [list]; decide⟩
  rw [find?_of_isAnchored (by decide), at?, head?_reach_procedurePattern, hname,
    List.head?_cons, Option.map_some]
  simp only [Cursor.runEnd_run hgap]
  rw [list, reach_parameterList line.close_notMem, List.head?_cons, Option.getD_some,
    Option.map_some]
  refine ⟨_, rfl, ?_, ?_, ?_, ?_⟩
  all_goals simp [Match.part, Match.part?, Cursor.textTo_append]

/-- **A procedure is read back.** -/
theorem procedureHeader?_text : procedureHeader? line.text =
    some (line.kind,
      { name := line.name
        params := some line.params
        bodiless := decide (∃ modifier ∈ line.modifiers, modifier.keyword = "MustOverride") }) := by
  obtain ⟨m, hfind, hmodifiers, hkeyword, hname, hparams⟩ := line.exists_find?
  rw [procedureHeader?, hfind, Option.map_some, hkeyword, ofKeyword_of_same line.keyword_same,
    hname, hparams, hmodifiers, contains_modifiers]

end ProcedureLine
end VisualBasic

/-- **Declarations are read back.**  A method that is declared on a line, behind any modifiers and
with a type and a name of which neither is a word that declares nothing, is read with this name
and this parameter list, and has no body exactly if there is no brace on the line and a semicolon
ends it.  A procedure is read with its kind, its name and its parameter list, and has no body
exactly if one of its modifiers is `MustOverride`. -/
theorem headers_read_back :
    (∀ line : CSharp.MethodLine, CSharp.methodHeader? line.text =
      some { name := line.name
             params := some line.params
             bodiless := decide ('{' ∉ line.text ∧
               (Text.trimEnd line.tail).getLast? = some ';') }) ∧
    ∀ line : VisualBasic.ProcedureLine, VisualBasic.procedureHeader? line.text =
      some (line.kind,
        { name := line.name
          params := some line.params
          bodiless :=
            decide (∃ modifier ∈ line.modifiers, modifier.keyword = "MustOverride") }) :=
  ⟨CSharp.MethodLine.methodHeader?_text, VisualBasic.ProcedureLine.procedureHeader?_text⟩

theorem headers_read_back_behind_modifiers :
    let method : CSharp.MethodLine :=
      { indent := "\t".toList
        modifiers := [⟨"public", "Public".toList, " ".toList, by decide, by decide, by decide⟩,
          ⟨"static", "static".toList, "  ".toList, by decide, by decide, by decide⟩]
        type := "async".toList
        spacing := " ".toList
        name := "partial".toList
        gap := []
        params := "List<int[]> xs = (null".toList
        tail := " where T : U; ".toList
        isSpace_indent := List.all_eq_true.mp (by decide)
        isType_type := by decide
        isGap_spacing := by decide
        isIdentifier_name := by decide
        isSpace_gap := List.all_eq_true.mp (by decide)
        close_notMem := by decide
        type_declares := by decide
        name_declares := by decide }
    let procedure : VisualBasic.ProcedureLine :=
      { indent := []
        modifiers := [⟨"MustOverride", "MUSTOVERRIDE".toList, " ".toList, by decide, by decide,
          by decide⟩]
        kind := .function
        keyword := "function".toList
        spacing := "\t".toList
        name := "Sub".toList
        gap := " ".toList
        params := "x".toList
        tail := " As Integer".toList
        isSpace_indent := List.all_eq_true.mp (by decide)
        keyword_same := by decide
        isGap_spacing := by decide
        isIdentifier_name := by decide
        isSpace_gap := List.all_eq_true.mp (by decide)
        close_notMem := by decide }
    method.text =
        "\tPublic static  async partial(List<int[]> xs = (null) where T : U; ".toList ∧
      procedure.text = "MUSTOVERRIDE function\tSub (x) As Integer".toList ∧
      CSharp.methodHeader? method.text = some { name := "partial".toList
                                                params := some "List<int[]> xs = (null".toList
                                                bodiless := true } ∧
      VisualBasic.procedureHeader? procedure.text = some (.function,
        { name := "Sub".toList, params := some "x".toList, bodiless := true }) := by
  intro method procedure
  refine ⟨by decide, by decide, ?_, ?_⟩
  · exact (headers_read_back.1 method).trans (by decide +kernel)
  · exact (headers_read_back.2 procedure).trans (by decide +kernel)

end Code
end LineLint
