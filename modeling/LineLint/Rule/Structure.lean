import LineLint.Code.Block.Batches
import LineLint.Code.Block.Braces
import LineLint.Code.Block.Keywords
import LineLint.Rule.Basic

/-! # Structural smells

Bodies that nest too deeply, parameter lists that are too long, and classes and
procedures that are too large.
-/
namespace LineLint
namespace Rule

open Code

/-- Deepest nesting allowed, unless configured otherwise. -/
def defaultMaxDepth : Nat := 3

/-- The issue for a block of code that nests too deeply. -/
def deepCodeIssue (maxDepth : Nat) (block : Block) : Issue where
  kind := "Smell.DeepNesting"
  line := some block.start
  message := "Nested blocks exceed " ++ toString maxDepth ++ " levels in function '" ++
    String.ofList block.name ++ "'."
  suggestion := "Refactor using early returns or helper methods."
  severity := .warning

/-- The issue for a batch or procedure that nests too deeply. -/
def deepBatchIssue (maxDepth : Nat) (block : Block) : Issue where
  kind := "Smell.DeepNesting"
  line := some block.start
  message := "Nested BEGIN/END blocks exceed " ++ toString maxDepth ++ " levels" ++
    if block.name.isEmpty then "."
    else " in procedure '" ++ String.ofList block.name ++ "'."
  suggestion := "Refactor into smaller procedures or reduce nesting."
  severity := .warning

/-- The procedures of T-SQL, or all lines as one batch if there are none. -/
def proceduresOrBatch (lines : List (List Char)) : List Block :=
  match TransactSql.procedureBlocks lines with
  | [] => [TransactSql.batchBlock lines]
  | blocks => blocks

/-- Bodies that nest more deeply than a limit. -/
def deepNesting (maxDepth : Nat) : Rule where
  name := "Smell.DeepNesting"
  family := .smell
  appliesTo := knownDialect
  severity := .warning
  description := "Flags bodies nested more than three levels deep"
  check := fun snippet =>
    let tooDeep := fun blocks : List Block => blocks.filter fun block => maxDepth < block.maxDepth
    match snippet.dialect with
    | .csharp => (tooDeep (CSharp.methodBlocks snippet.lines)).map (deepCodeIssue maxDepth)
    | .vbnet => (tooDeep (VisualBasic.procedureBlocks snippet.lines)).map (deepCodeIssue maxDepth)
    | .sql => (tooDeep (proceduresOrBatch snippet.lines)).map (deepBatchIssue maxDepth)
    | .unknown => []

/-- Most parameters allowed, unless configured otherwise. -/
def defaultMaxParams : Nat := 5

/-- The first callable header on a line. -/
def callableHeader? (dialect : Dialect) (line : List Char) : Option Header :=
  match dialect with
  | .csharp => CSharp.methodHeader? line
  | .vbnet => (VisualBasic.procedureHeader? line).map (·.2)
  | .sql => TransactSql.procedureHeader? line
  | .unknown => none

/-- What a callable is called in messages. -/
def callableNoun : Dialect → String
  | .sql => "Procedure"
  | _ => "Method"

/-- What to do about a long parameter list. -/
def shortenParams : Dialect → String
  | .csharp => "Consider grouping parameters into an object or reducing parameters."
  | .vbnet => "Consider grouping parameters into a type or reducing parameters."
  | _ => "Refactor to reduce parameters or use table-valued parameters."

/-- The issue for the first header on a line, if its parameters are more than a limit. -/
def longParamsIssue? (maxParams : Nat) (dialect : Dialect) (number : Nat) (line : List Char) :
    Option Issue :=
  match callableHeader? dialect line with
  | none => none
  | some header =>
    match header.paramCount with
    | none => none
    | some count =>
      if maxParams < count then
        some
          { kind := "Smell.LongParameterList"
            line := some number
            message := callableNoun dialect ++ " '" ++ String.ofList header.name ++ "' has " ++
              toString count ++ " parameters."
            suggestion := shortenParams dialect
            severity := .warning }
      else none

/-- Headers with more parameters than a limit. -/
def longParameterList (maxParams : Nat) : Rule where
  name := "Smell.LongParameterList"
  family := .smell
  appliesTo := knownDialect
  severity := .warning
  description := "Flags methods and procedures with more than five parameters"
  check := fun snippet =>
    snippet.numberedLines.filterMap fun numbered =>
      longParamsIssue? maxParams snippet.dialect numbered.2 numbered.1

/-- Longest span allowed, unless configured otherwise. -/
def defaultMaxLines : Nat := 300

/-- Most methods allowed in a class, unless configured otherwise. -/
def defaultMaxMethods : Nat := 10

/-- The issue for a class that is too large. -/
def largeClassIssue (block : Block) : Issue where
  kind := "Smell.LargeClass"
  line := some block.start
  message := "Class '" ++ String.ofList block.name ++ "' spans " ++ toString block.span ++
    " lines and has " ++ toString block.methods ++ " methods."
  suggestion := "Split into smaller classes or reduce responsibilities."
  severity := .info

/-- The issue for a procedure that is too large. -/
def largeProcedureIssue (block : Block) : Issue where
  kind := "Smell.LargeProcedure"
  line := some block.start
  message := "Procedure/Function '" ++ String.ofList block.name ++ "' spans " ++
    toString block.span ++ " lines."
  suggestion := "Break into smaller procedures or review logic size."
  severity := .info

/-- Classes with too many lines or methods, and procedures with too many lines. -/
def largeStructure (maxLines maxMethods : Nat) : Rule where
  name := "Smell.LargeStructure"
  family := .smell
  appliesTo := knownDialect
  severity := .info
  description := "Flags classes over 300 lines or 10 methods and procedures over 300 lines"
  check := fun snippet =>
    let tooLarge := fun blocks : List Block =>
      blocks.filter fun block => maxLines < block.span || maxMethods < block.methods
    match snippet.dialect with
    | .csharp => (tooLarge (CSharp.classBlocks snippet.lines)).map largeClassIssue
    | .vbnet => (tooLarge (VisualBasic.classBlocks snippet.lines)).map largeClassIssue
    | .sql =>
      ((TransactSql.procedureBlocks snippet.lines).filter fun block =>
        maxLines < block.span).map largeProcedureIssue
    | .unknown => []

end Rule
end LineLint
