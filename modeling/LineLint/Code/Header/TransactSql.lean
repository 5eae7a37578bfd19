import LineLint.Code.Header
import LineLint.Pattern.Vocabulary

/-! # Headers and separators of T-SQL

`CREATE PROCEDURE` and its variants open a routine, `BEGIN` and `END` nest, and
`GO` separates batches.
-/
namespace LineLint
namespace Code
namespace TransactSql

open Pattern

/-- The marker of line comments. -/
def commentMarker : List Char := "--".toList

/-- The keywords that `CREATE` makes a routine with, the shorter spelling first. -/
def routineKeywords : List String :=
  ["PROC", "PROCEDURE", "FUNCTION"]

/-- `CREATE PROCEDURE name`, with an optional schema in front of the name. -/
def procedurePattern : Pattern :=
  edge ++ word "CREATE" ++ gap ++ optional (word "OR" ++ gap ++ word "ALTER" ++ gap) ++
    words routineKeywords ++ gap ++
    optional (optional (exactly '[') ++ identifier ++ optional (exactly ']') ++ exactly '.') ++
    optional (exactly '[') ++ named .name identifier ++ optional (exactly ']')

/-- `BEGIN`. -/
def beginPattern : Pattern :=
  edge ++ word "BEGIN" ++ edge

/-- `BEGIN` with a word that makes it open a transaction. -/
def beginTransactionPattern : Pattern :=
  edge ++ word "BEGIN" ++ gap ++ words ["TRAN", "TRANSACTION", "DISTRIBUTED"] ++ edge

/-- `END`. -/
def endPattern : Pattern :=
  edge ++ word "END" ++ edge

/-- `AS`. -/
def asPattern : Pattern :=
  edge ++ word "AS" ++ edge

/-- `GO` at the start of a line. -/
def batchPattern : Pattern :=
  textStart ++ spaces ++ word "GO" ++ edge

/-- The parameter list at the start of a text: in parentheses, or from an `@` up to `AS`. -/
def leadingParams (text : List Char) : Option (List Char) :=
  match text with
  | '(' :: inner => (splitAtFirst ')' inner).map (·.1)
  | '@' :: _ =>
    match asPattern.find? text with
    | some m => some (text.take m.offset)
    | none => some text
  | _ => none

/-- The header of a procedure or function on a line. -/
def procedureHeader? (line : List Char) : Option Header :=
  (procedurePattern.find? line).map fun m =>
    { name := m.part .name
      params := leadingParams (Text.trimStart m.rest)
      bodiless := false }

/-- Whether a line separates batches. -/
def isBatchSeparator (line : List Char) : Bool :=
  batchPattern.occursIn line

end TransactSql
end Code
end LineLint
