import LineLint.Proofs.Block.Keywords
import LineLint.Proofs.Pattern.Runs
import LineLint.Proofs.Pattern.Trailers
import LineLint.Rule.MissingEnd
import LineLint.Rule.Structure
import Mathlib.Data.List.TakeWhile

/-! # Comments behind lines of VB.NET

A comment that is put behind a line, set off by a space, is read by no scanner, whatever it
says: it may look like a header, a terminator or an `If`, and it may hold quotes.  Headers and
terminators are read off the whole line, but their patterns stop at the marker of the comment
and do not mind the space (`declaration?_comment` and its companions).  What a line opens and
closes is read off its code, which is at most one space longer than before
(`stripComment_comment`), and for this the test for comment lines does not matter
(`delta_eq`).

The one condition is that the line does not end inside a string, so that the marker is one.
-/
namespace LineLint
namespace Code

/-- A comment behind a text that does not end inside a string is cut off with its marker, if
none was cut off before. -/
theorem cutComment_comment {mark : Char} (hquote : mark ≠ '"') (hspace : mark ≠ ' ')
    {inString : Bool} {line : List Char} (h : Even (line.count '"' + inString.toNat))
    (comment : List Char) :
    cutComment [mark] inString (line ++ ' ' :: mark :: comment) =
        cutComment [mark] inString line ∨
      cutComment [mark] inString line = line ∧
        cutComment [mark] inString (line ++ ' ' :: mark :: comment) = line ++ [' '] := by
  induction line generalizing inString with
  | nil =>
    obtain rfl : inString = false := by
      cases inString with
      | false => rfl
      | true => simp at h
    right
    simp [cutComment, hquote, hspace]
  | cons c line ih =>
    rw [List.cons_append, cutComment, cutComment]
    by_cases hc : c = '"'
    · have heven : Even (line.count '"' + (!inString).toNat) := by
        rw [hc, List.count_cons_self] at h
        cases inString with
        | false => simpa using h
        | true => simpa [Nat.even_add_one] using h
      rw [if_pos hc, if_pos hc]
      exact (ih heven).imp (congrArg _) (And.imp (congrArg _) (congrArg _))
    · have heven : Even (line.count '"' + inString.toNat) := by
        rwa [List.count_cons_of_ne hc] at h
      have hmarker : ([mark].isPrefixOf (c :: (line ++ ' ' :: mark :: comment))) =
          [mark].isPrefixOf (c :: line) := rfl
      rw [if_neg hc, if_neg hc, hmarker]
      split
      · exact Or.inl rfl
      · exact (ih heven).imp (congrArg _) (And.imp (congrArg _) (congrArg _))

namespace VisualBasic

open Pattern

/-! ## Headers and terminators -/

/-- The part of a procedure header that ends with the name. -/
def procedureName : Pattern :=
  textStart ++ spaces ++ named .modifiers (repeated (words procedureModifiers ++ gap)) ++
    named .keyword (words ["Sub", "Function"]) ++ gap ++ named .name identifier

/-- A parameter list that closes on its line. -/
def parameterList : Pattern :=
  exactly '(' ++ named .params (allBut ')') ++ exactly ')'

theorem procedurePattern_eq :
    procedurePattern = procedureName ++ spaces ++ optional parameterList := rfl

/-- What is read off a match of a procedure header apart from its parameters: the kind, the name
and whether no body is declared. -/
def readDeclaration (m : Match) : ProcedureKind × List Char × Bool :=
  (ProcedureKind.ofKeyword (m.part .keyword), m.part .name,
    Text.contains (Text.asciiLower (m.part .modifiers)) "mustoverride".toList)

theorem readDeclaration_congr {m m' : Match}
    (h : ∀ part ∈ [Part.modifiers, Part.keyword, Part.name], m.part part = m'.part part) :
    readDeclaration m = readDeclaration m' := by
  rw [readDeclaration, readDeclaration, h .keyword (by simp), h .name (by simp),
    h .modifiers (by simp)]

/-- What a procedure header says apart from its parameters. -/
def declaration? (line : List Char) : Option (ProcedureKind × List Char × Bool) :=
  (procedureHeader? line).map fun found => (found.1, found.2.name, found.2.bodiless)

/-- All this is said once the name has been read. -/
theorem declaration?_eq (line : List Char) :
    declaration? line = (procedureName.find? line).map readDeclaration := by
  have homits : ∀ part ∈ [Part.modifiers, Part.keyword, Part.name],
      (optional parameterList).omits part = true ∧ spaces.omits part = true := by decide
  have hlist := at?_ending (p := procedureName ++ spaces) reach_optional_ne_nil
    (fun m m' h => readDeclaration_congr fun part hpart => h part (homits part hpart).1)
    ⟨[], line⟩
  have hspaces := at?_ending (p := procedureName) (q := spaces) (fun s => List.cons_ne_nil _ _)
    (fun m m' h => readDeclaration_congr fun part hpart => h part (homits part hpart).2)
    ⟨[], line⟩
  rw [declaration?, procedureHeader?, Option.map_map, procedurePattern_eq,
    find?_of_isAnchored (by decide), find?_of_isAnchored (by decide)]
  exact hlist.trans hspaces

section
variable (line comment : List Char)

theorem declaration?_comment :
    declaration? (line ++ ' ' :: '\'' :: comment) = declaration? line := by
  rw [declaration?_eq, declaration?_eq,
    find?_append_comment (by decide) (by decide) (by decide) (by decide), Option.map_map]
  refine Option.map_congr fun m _ => ?_
  exact readDeclaration_congr fun part _ => Match.part_extend _ m part

theorem className?_comment :
    className? (line ++ ' ' :: '\'' :: comment) = className? line := by
  rw [className?, className?,
    find?_append_comment (by decide) (by decide) (by decide) (by decide)]
  cases classPattern.find? line with
  | none => rfl
  | some m => simp only [Option.map_some, Match.part_extend]

theorem procedureEnd?_comment :
    procedureEnd? (line ++ ' ' :: '\'' :: comment) = procedureEnd? line := by
  rw [procedureEnd?, procedureEnd?,
    find?_append_comment (by decide) (by decide) (by decide) (by decide), Option.map_map]
  simp only [Function.comp_def, Match.part_extend]

theorem endsClass_comment : endsClass (line ++ ' ' :: '\'' :: comment) = endsClass line := by
  rw [endsClass, endsClass, occursIn, occursIn,
    find?_append_comment (by decide) (by decide) (by decide) (by decide), Option.isSome_map]

end

/-! ## What a line opens and closes -/

/-- The name of a body is read off what is declared. -/
theorem bodyName_eq (line : List Char) :
    (bodyHeader? line).map (·.name) =
      (declaration? line).bind fun said => if said.2.2 then none else some said.2.1 := by
  rw [bodyHeader?, declaration?]
  cases procedureHeader? line with
  | none => rfl
  | some found =>
    obtain ⟨kind, header⟩ := found
    cases hbody : header.bodiless <;> simp [hbody]

theorem bodyName_congr {line other : List Char} (h : declaration? other = declaration? line) :
    (bodyHeader? other).map (·.name) = (bodyHeader? line).map (·.name) := by
  rw [bodyName_eq, bodyName_eq, h]

theorem isSome_bodyHeader?_congr {line other : List Char}
    (h : declaration? other = declaration? line) :
    (bodyHeader? other).isSome = (bodyHeader? line).isSome := by
  have hname := congrArg Option.isSome (bodyName_congr h)
  rwa [Option.isSome_map, Option.isSome_map] at hname

theorem stripComment_comment {line : List Char} (h : Even (line.count '"')) (comment : List Char) :
    stripComment (line ++ ' ' :: '\'' :: comment) commentMarker = stripComment line commentMarker ∨
      stripComment (line ++ ' ' :: '\'' :: comment) commentMarker =
        stripComment line commentMarker ++ [' '] := by
  have heven : Even (line.count '"' + false.toNat) := by simpa using h
  refine (cutComment_comment (by decide) (by decide) heven comment).imp id ?_
  rintro ⟨hline, hlonger⟩
  exact hlonger.trans (congrArg (· ++ [' ']) hline.symm)

/-- What the code of a line opens and closes. -/
def codeDelta (code : List Char) : Delta :=
  if blockEndPattern.occursIn code then ⟨0, 1⟩
  else if opensBlock code then ⟨1, 0⟩
  else ⟨0, 0⟩

/-- Nothing occurs in the code of a comment line, so the test for comment lines could be left
out. -/
theorem delta_eq (line : List Char) : delta line = codeDelta (stripComment line commentMarker) := by
  obtain ⟨tail, hline⟩ := stripComment_prefix line commentMarker
  cases hcomment : isCommentLine line with
  | false => simp only [delta, hcomment, codeDelta, Bool.false_eq_true, if_false]
  | true =>
    have hnever : ∀ p : Pattern, p.isAnchored = true → p.canStay = false →
        p.begins '\'' = false → p.begins 'r' = false → p.begins 'R' = false →
        p.occursIn (stripComment line commentMarker) = false := by
      intro p hanchored hstay hmarker hsmall hcapital
      rw [← Bool.not_eq_true]
      intro hoccurs
      have hno := isCommentLine_append_eq_false hanchored hstay hmarker hsmall hcapital hoccurs tail
      rw [hline, hcomment] at hno
      cases hno
    have hheader : (bodyHeader? (stripComment line commentMarker)).isSome = false := by
      rw [← Bool.not_eq_true]
      intro hsome
      have hno := hnever procedurePattern
        (by decide) (by decide) (by decide) (by decide) (by decide)
      rw [occursIn_of_bodyHeader? hsome] at hno
      cases hno
    have hend := hnever blockEndPattern (by decide) (by decide) (by decide) (by decide) (by decide)
    have hclass := hnever classPattern (by decide) (by decide) (by decide) (by decide) (by decide)
    have hif := hnever ifThenPattern (by decide) (by decide) (by decide) (by decide) (by decide)
    simp [delta, hcomment, codeDelta, opensBlock, hheader, hend, hclass, hif]

/-- The part of an `If` that ends with `Then`. -/
def ifThen : Pattern :=
  textStart ++ spaces ++ word "If" ++ edge ++ many (· != '\n') ++ edge ++ word "Then"

/-- Behind `Then` stands nothing but white space. -/
theorem ifThenPattern_iff (line : List Char) :
    ifThenPattern.occursIn line = true ↔
      ∃ s ∈ ifThen.reach ⟨⟨[], line⟩, []⟩, ∀ c ∈ s.place.after, Text.isSpace c = true := by
  have hreach : ifThenPattern.reach ⟨⟨[], line⟩, []⟩ =
      (ifThen.reach ⟨⟨[], line⟩, []⟩).flatMap (spaces ++ textEnd).reach :=
    List.flatMap_assoc
  have hend : ∀ s : Reached, (∃ t, t ∈ (spaces ++ textEnd).reach s) ↔
      ∀ c ∈ s.place.after, Text.isSpace c = true := by
    intro s
    rw [← List.dropWhile_eq_nil_iff, ← Cursor.after_runEnd _ s.place.before]
    simp [reach_append, spaces, reach]
  rw [occursIn, find?_of_isAnchored (by decide), at?_isSome_iff, hreach]
  simp only [List.mem_flatMap, ← hend]
  constructor
  · rintro ⟨t, s, hs, ht⟩
    exact ⟨s, hs, t, ht⟩
  · rintro ⟨s, hs, t, ht⟩
    exact ⟨t, s, hs, ht⟩

theorem ifThenPattern_space (code : List Char) :
    ifThenPattern.occursIn (code ++ [' ']) = ifThenPattern.occursIn code := by
  have hreach : ifThen.reach ⟨⟨[], code ++ [' ']⟩, []⟩ =
      (ifThen.reach ⟨⟨[], code⟩, []⟩).map (Reached.map (Cursor.extend [' '])) :=
    reach_extend_mark (by decide) (by decide) ⟨⟨[], code⟩, []⟩
  have hspace : Text.isSpace ' ' = true := by decide
  rw [Bool.eq_iff_iff, ifThenPattern_iff, ifThenPattern_iff, hreach]
  simp [Reached.map, Cursor.extend, or_imp, forall_and, hspace]

theorem declaration?_space (code : List Char) :
    declaration? (code ++ [' ']) = declaration? code := by
  rw [declaration?_eq, declaration?_eq,
    find?_append_mark (by decide) (by decide) (by decide), Option.map_map]
  refine Option.map_congr fun m _ => ?_
  exact readDeclaration_congr fun part _ => Match.part_extend _ m part

/-- A space behind the code does not matter. -/
theorem codeDelta_space (code : List Char) : codeDelta (code ++ [' ']) = codeDelta code := by
  have hoccurs : ∀ p : Pattern, p.isAnchored = true → p.stopsShort ' ' = true →
      p.occursIn (code ++ [' ']) = p.occursIn code := by
    intro p hanchored hspace
    rw [occursIn, find?_append_mark hanchored hspace (by decide), Option.isSome_map, occursIn]
  have hheader := isSome_bodyHeader?_congr (declaration?_space code)
  rw [codeDelta, opensBlock, hheader, ifThenPattern_space,
    hoccurs blockEndPattern (by decide) (by decide), hoccurs classPattern (by decide) (by decide),
    codeDelta, opensBlock]

theorem delta_comment {line : List Char} (h : Even (line.count '"')) (comment : List Char) :
    delta (line ++ ' ' :: '\'' :: comment) = delta line := by
  rw [delta_eq, delta_eq]
  rcases stripComment_comment h comment with hcode | hcode
  · rw [hcode]
  · rw [hcode, codeDelta_space]

/-! ## Blocks -/

/-- The second line is the first, or the first with a comment behind it that is set off by a space,
if the first does not end inside a string. -/
def Commented (line other : List Char) : Prop :=
  other = line ∨ Even (line.count '"') ∧ ∃ comment, other = line ++ ' ' :: '\'' :: comment

/-- Two lines that no scanner of VB.NET can tell apart. -/
structure ReadsAlike (line other : List Char) : Prop where
  declaration : declaration? other = declaration? line
  className : className? other = className? line
  procedureEnd : procedureEnd? other = procedureEnd? line
  endsClass : endsClass other = endsClass line
  delta : delta other = delta line

theorem Commented.readsAlike {line other : List Char} (h : Commented line other) :
    ReadsAlike line other := by
  rcases h with rfl | ⟨heven, comment, rfl⟩
  · exact ⟨rfl, rfl, rfl, rfl, rfl⟩
  · exact ⟨declaration?_comment line comment, className?_comment line comment,
      procedureEnd?_comment line comment, endsClass_comment line comment,
      delta_comment heven comment⟩

namespace ReadsAlike
variable {line other : List Char} (h : ReadsAlike line other)
include h

theorem isSome_procedureHeader? :
    (procedureHeader? other).isSome = (procedureHeader? line).isSome := by
  have hsome := congrArg Option.isSome h.declaration
  rwa [declaration?, declaration?, Option.isSome_map, Option.isSome_map] at hsome

theorem confuses_procedureReader : procedureReader.Confuses other line where
  step state := by simp only [procedureReader, h.delta]
  endsWith _ := by simp only [procedureReader, h.procedureEnd]
  endsBefore := rfl

theorem confuses_classReader : classReader.Confuses other line where
  step state := by simp only [classReader, h.isSome_procedureHeader?]
  endsWith _ := by simp only [classReader, h.endsClass]
  endsBefore := rfl

end ReadsAlike

section
variable {lines others : List (List Char)} (h : List.Forall₂ ReadsAlike lines others)
include h

theorem procedureBlocks_congr : procedureBlocks others = procedureBlocks lines := by
  refine (Scanner.blocksFrom_congr (f := id) ?_ ?_ h 1 0).trans (List.map_id _)
  · intro line other halike
    rw [Option.map_id]
    exact bodyName_congr halike.declaration
  · intro lines others halike
    have hread := BodyReader.read_congr
      (halike.flip.imp fun _ _ hline => hline.confuses_procedureReader) procedureReader.start
    simp only [procedureScanner, hread]

theorem classBlocks_congr : classBlocks others = classBlocks lines := by
  refine (Scanner.blocksFrom_congr (f := id) ?_ ?_ h 1 0).trans (List.map_id _)
  · intro line other halike
    rw [Option.map_id]
    exact halike.className
  · intro lines others halike
    have hread := BodyReader.read_congr
      (halike.flip.imp fun _ _ hline => hline.confuses_classReader) classReader.start
    simp only [classScanner, hread]

end

end VisualBasic
end Code

namespace Rule

open Code.VisualBasic

/-! ## Rules -/

/-- What a line does to the balance of procedures is seen in what it declares and what it ends. -/
theorem ProcedureLine.of_congr {line other : List Char} (h : ReadsAlike line other) :
    ProcedureLine.of other = ProcedureLine.of line := by
  have hof : ∀ line, ProcedureLine.of line =
      ((declaration? line).map fun said =>
        if said.2.2 then ProcedureLine.neutral else .opens said.1).getD
          (((procedureEnd? line).map ProcedureLine.closes).getD .neutral) := by
    intro line
    rw [ProcedureLine.of, declaration?]
    cases procedureHeader? line with
    | some found => rfl
    | none => cases procedureEnd? line <;> rfl
  rw [hof, hof, h.declaration, h.procedureEnd]

theorem map_procedureLine_congr {lines others : List (List Char)}
    (h : List.Forall₂ ReadsAlike lines others) :
    others.map ProcedureLine.of = lines.map ProcedureLine.of := by
  induction h with
  | nil => rfl
  | cons hline _ ih => rw [List.map_cons, ProcedureLine.of_congr hline, ih, List.map_cons]

/-- **Comments behind lines change no structure.**  Put comments behind any lines of VB.NET that
do not end inside a string, each set off by a space: the procedures and the classes are the
same blocks, and the rules for missing terminators, deep nesting and large structures report
the same. -/
theorem structure_of_commented {lines others : List (List Char)}
    (h : List.Forall₂ Commented lines others) :
    procedureBlocks others = procedureBlocks lines ∧ classBlocks others = classBlocks lines ∧
    ∀ plain commented : Snippet, plain.dialect = .vbnet → commented.dialect = .vbnet →
      plain.lines = lines → commented.lines = others →
      missingEnd.check commented = missingEnd.check plain ∧
      (∀ maxDepth, (deepNesting maxDepth).check commented = (deepNesting maxDepth).check plain) ∧
      ∀ maxLines maxMethods, (largeStructure maxLines maxMethods).check commented =
        (largeStructure maxLines maxMethods).check plain := by
  have halike : List.Forall₂ ReadsAlike lines others := h.imp fun _ _ => Commented.readsAlike
  have hprocedures := procedureBlocks_congr halike
  have hclasses := classBlocks_congr halike
  have hmarks := map_procedureLine_congr halike
  refine ⟨hprocedures, hclasses, ?_⟩
  rintro ⟨plain, _⟩ ⟨commented, _⟩ rfl rfl rfl rfl
  refine ⟨?_, ?_, ?_⟩
  · simp only [missingEnd, lacksEnd, hmarks]
  · intro maxDepth
    simp only [deepNesting, hprocedures]
  · intro maxLines maxMethods
    simp only [largeStructure, hclasses]

/-- Comments that look like a header, an `If` and a terminator; one stands behind a `REM`, which
becomes a comment line by it, and one behind another comment. -/
theorem structure_of_commented_nested :
    let plain : Snippet :=
      ⟨"Class C\nSub A(x)\nIf x = \"'\" Then\nREM\nEnd If\nEnd Sub ' \"A\"".toList, .vbnet⟩
    let commented : Snippet :=
      ⟨("Class C 'End Class\nSub A(x) 'Function B(\"\nIf x = \"'\" Then 'End If\n" ++
        "REM 'If x Then\nEnd If\nEnd Sub ' \"A\" 'Sub B()").toList, .vbnet⟩
    List.Forall₂ Commented plain.lines commented.lines ∧
      procedureBlocks commented.lines = [⟨['A'], 2, 6, true, 2, 0⟩] ∧
      classBlocks commented.lines = [⟨['C'], 1, 6, false, 0, 1⟩] ∧
      missingEnd.check commented = [] ∧
      ((deepNesting 1).check commented).map (·.line) = [some 2] := by
  intro plain commented
  have hplain : plain.lines = ["Class C", "Sub A(x)", "If x = \"'\" Then", "REM", "End If",
      "End Sub ' \"A\""].map String.toList := by
    decide +kernel
  have hcommented : commented.lines = ["Class C 'End Class", "Sub A(x) 'Function B(\"",
      "If x = \"'\" Then 'End If", "REM 'If x Then", "End If",
      "End Sub ' \"A\" 'Sub B()"].map String.toList := by
    decide +kernel
  have hlines : List.Forall₂ Commented plain.lines commented.lines := by
    rw [hplain, hcommented]
    refine .cons ?_ (.cons ?_ (.cons ?_ (.cons ?_ (.cons ?_ (.cons ?_ .nil)))))
    · exact Or.inr ⟨by decide, "End Class".toList, by decide⟩
    · exact Or.inr ⟨by decide, "Function B(\"".toList, by decide⟩
    · exact Or.inr ⟨by decide, "End If".toList, by decide⟩
    · exact Or.inr ⟨by decide, "If x Then".toList, by decide⟩
    · exact Or.inl rfl
    · exact Or.inr ⟨by decide, "Sub B()".toList, by decide⟩
  obtain ⟨hprocedures, hclasses, hrules⟩ := structure_of_commented hlines
  obtain ⟨hends, hdeep, -⟩ := hrules plain commented rfl rfl rfl rfl
  refine ⟨hlines, ?_, ?_, ?_, ?_⟩
  · rw [hprocedures]
    decide +kernel
  · rw [hclasses]
    decide +kernel
  · rw [hends]
    decide +kernel
  · rw [hdeep]
    decide +kernel

end Rule
end LineLint
