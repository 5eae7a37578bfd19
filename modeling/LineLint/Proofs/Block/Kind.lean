import LineLint.Code.Block.Batches
import LineLint.Code.Block.Braces
import LineLint.Code.Block.Keywords
import LineLint.Proofs.Block.Reading

/-! # The kinds of blocks

Blocks are looked for in five ways.  `BlockKind.Declares` says for each of them,
in terms of header lines only, which lines open a block and under which name;
`BlockKind.header?_eq_some_iff` ties it to the scanner of the kind, and
`BlockKind.lawful` shows that all five scanners are lawful.
-/
namespace LineLint
namespace Code

/-- The five kinds of blocks. -/
inductive BlockKind where
  /-- Methods of C#. -/
  | csharpMethod
  /-- Classes of C#. -/
  | csharpClass
  /-- Procedures of VB.NET. -/
  | vbnetProcedure
  /-- Classes of VB.NET. -/
  | vbnetClass
  /-- Procedures and functions of T-SQL. -/
  | sqlProcedure
  deriving DecidableEq, Repr

namespace BlockKind

/-- The blocks of a kind in a list of lines. -/
def blocks : BlockKind → List (List Char) → List Block
  | csharpMethod => CSharp.methodBlocks
  | csharpClass => CSharp.classBlocks
  | vbnetProcedure => VisualBasic.procedureBlocks
  | vbnetClass => VisualBasic.classBlocks
  | sqlProcedure => TransactSql.procedureBlocks

/-- How the blocks of a kind are found. -/
def scanner : BlockKind → Scanner
  | csharpMethod => CSharp.methodScanner
  | csharpClass => CSharp.classScanner
  | vbnetProcedure => VisualBasic.procedureScanner
  | vbnetClass => VisualBasic.classScanner
  | sqlProcedure => TransactSql.procedureScanner

/-- Whether a line holds a header of a kind that declares `name`.  Headers of C# are read
without the comment of their line, and methods and VB.NET procedures need a body. -/
def Declares : BlockKind → List Char → List Char → Prop
  | csharpMethod, line, name => ∃ header,
      CSharp.methodHeader? (stripComment line CSharp.commentMarker) = some header ∧
        header.bodiless = false ∧ header.name = name
  | csharpClass, line, name =>
      CSharp.className? (stripComment line CSharp.commentMarker) = some name
  | vbnetProcedure, line, name => ∃ kind header,
      VisualBasic.procedureHeader? line = some (kind, header) ∧
        header.bodiless = false ∧ header.name = name
  | vbnetClass, line, name => VisualBasic.className? line = some name
  | sqlProcedure, line, name => ∃ header,
      TransactSql.procedureHeader? line = some header ∧ header.name = name

theorem blocks_eq (kind : BlockKind) (lines : List (List Char)) :
    kind.blocks lines = kind.scanner.blocks lines := by
  cases kind <;> rfl

theorem header?_eq_some_iff (kind : BlockKind) (line name : List Char) :
    kind.scanner.header? line = some name ↔ kind.Declares line name := by
  cases kind with
  | csharpMethod =>
    simp only [scanner, CSharp.methodScanner, CSharp.codeHeader?, Declares]
    cases CSharp.methodHeader? (stripComment line CSharp.commentMarker) with
    | none => simp
    | some header => cases h : header.bodiless <;> simp [h]
  | csharpClass => exact Iff.rfl
  | vbnetProcedure =>
    simp only [scanner, VisualBasic.procedureScanner, VisualBasic.bodyHeader?, Declares]
    cases VisualBasic.procedureHeader? line with
    | none => simp
    | some found => cases h : found.2.bodiless <;> simp [h, Prod.ext_iff]
  | vbnetClass => exact Iff.rfl
  | sqlProcedure => exact Option.map_eq_some_iff

end BlockKind

theorem CSharp.lawful_methodScanner : CSharp.methodScanner.Lawful :=
  Scanner.lawful_of_read braceReader (fun _ => rfl) (fun _ => rfl)
    fun lines more h => by simp only [methodScanner, h]

theorem CSharp.lawful_classScanner : CSharp.classScanner.Lawful := by
  refine Scanner.lawful_of_read braceReader (fun _ => rfl) (fun _ => rfl) ?_
  intro lines more h
  -- the headers are counted on lines of the body, all of which lie in front of `more`
  have hle := braceReader.read_length_le braceReader.start lines
  simp only [classScanner, h, List.take_append_of_le_length hle]

theorem VisualBasic.lawful_procedureScanner : VisualBasic.procedureScanner.Lawful :=
  Scanner.lawful_of_read procedureReader (fun _ => rfl) (fun _ => rfl)
    fun lines more h => by simp only [procedureScanner, h]

theorem VisualBasic.lawful_classScanner : VisualBasic.classScanner.Lawful :=
  Scanner.lawful_of_read classReader (fun _ => rfl) (fun _ => rfl)
    fun lines more h => by simp only [classScanner, h]

theorem TransactSql.lawful_procedureScanner : TransactSql.procedureScanner.Lawful :=
  Scanner.lawful_of_read procedureReader (fun _ => rfl) (fun _ => rfl)
    fun lines more h => by simp only [procedureScanner, h]

/-- All five scanners are lawful. -/
theorem BlockKind.lawful (kind : BlockKind) : kind.scanner.Lawful := by
  cases kind with
  | csharpMethod => exact CSharp.lawful_methodScanner
  | csharpClass => exact CSharp.lawful_classScanner
  | vbnetProcedure => exact VisualBasic.lawful_procedureScanner
  | vbnetClass => exact VisualBasic.lawful_classScanner
  | sqlProcedure => exact TransactSql.lawful_procedureScanner

end Code
end LineLint
