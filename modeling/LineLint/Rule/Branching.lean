import LineLint.Code.Block.Braces
import LineLint.Rule.Basic

/-! # Branching of methods

Counts the word `if` on the lines of each method of C#, comments and strings
included.  Methods whose end was not found are passed over.
-/
namespace LineLint
namespace Rule

open Code

/-- Most `if` words in a method, unless configured otherwise. -/
def defaultMaxIfs : Nat := 2

/-- A number in words up to ten, and in digits beyond. -/
def spelled (n : Nat) : String :=
  (["zero", "one", "two", "three", "four", "five", "six", "seven", "eight", "nine",
    "ten"][n]?).getD (toString n)

/-- The lines that a block extends over. -/
def linesOf (lines : List (List Char)) (block : Block) : List (List Char) :=
  (lines.drop (block.start - 1)).take (block.stop + 1 - block.start)

/-- Number of `if` words on the lines of a block. -/
def countIfs (lines : List (List Char)) (block : Block) : Nat :=
  (linesOf lines block).foldl (fun n line => n + Text.countWord line "if".toList) 0

/-- Methods of C# with too many `if` words, reported where the method ends. -/
def nestedIfs (maxIfs : Nat) : Rule where
  name := "CSharp.NestedIfs"
  family := .dialect
  appliesTo := fun dialect => dialect == .csharp
  severity := .warning
  description := "Flags methods with more than two if statements"
  check := fun snippet =>
    let tooMany := (CSharp.methodBlocks snippet.lines).filter fun block =>
      block.closed && maxIfs < countIfs snippet.lines block
    tooMany.map fun block =>
      { kind := "CSharp.NestedIfs"
        line := some block.stop
        message := "Method contains more than " ++ spelled maxIfs ++
          " 'if' statements (found " ++ toString (countIfs snippet.lines block) ++ ")."
        suggestion := "Consider refactoring (guard clauses, strategy, or early returns)."
        severity := .warning }

end Rule
end LineLint
