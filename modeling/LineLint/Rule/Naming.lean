import LineLint.Code.Comment
import LineLint.Code.Header.CSharp
import LineLint.Code.Header.TransactSql
import LineLint.Code.Header.VisualBasic
import LineLint.Rule.Basic
import LineLint.Rule.LoanTerms

/-! # Names that say nothing

Names are gathered line by line: of methods and variables in C#, of procedures
and `Dim` variables in VB.NET, of aliases and routines in T-SQL.  A name is
reported when it is too short for its role or one of a few generic words; the
counters `i` and `j` of loops are excused.
-/
namespace LineLint
namespace Naming

open Code Pattern

/-- What a name stands for. -/
inductive Role where
  /-- Something callable. -/
  | callable
  /-- A variable or an alias. -/
  | variable
  deriving DecidableEq, Repr

/-- A name found on a line. -/
structure Found where
  /-- Number of the line. -/
  line : Nat
  /-- The name. -/
  name : List Char
  /-- What it stands for. -/
  role : Role
  deriving DecidableEq, Repr

/-! ## C# -/

/-- A character that the type of a variable may go on with. -/
def continuesVariableType (c : Char) : Bool :=
  continuesIdentifier c || "<>[]?".toList.contains c

/-- `var` or the name of a type. -/
def variableType : Pattern :=
  word "var" <|> (char startsIdentifier ++ run continuesVariableType)

/-- A type, a name, and then `=`, `;` or `,`. -/
def variablePattern : Pattern :=
  edge ++ named .type variableType ++ gap ++ named .name identifier ++ spaces ++
    (exactly '=' <|> exactly ';' <|> exactly ',')

/-- The head of a `for` loop that closes on its line. -/
def forPattern : Pattern :=
  edge ++ word "for" ++ spaces ++ exactly '(' ++ named .content (allBut ')') ++ exactly ')'

/-- The declaration of `i` or `j` in a loop head. -/
def counterPattern : Pattern :=
  edge ++ variableType ++ gap ++ named .name (char fun c => foldsTo 'i' c || foldsTo 'j' c) ++
    edge

/-- The names on a line of C#: its methods, and then its variables. -/
def csharpNames (line : List Char) : List (List Char × Role) :=
  let code := codeOnly line CSharp.commentMarker
  let methods := (CSharp.methodHeaders code).map fun header => (header.name, Role.callable)
  let locals := ((variablePattern.allMatches code).filter CSharp.declares).map fun m =>
    (m.part .name, Role.variable)
  methods ++ locals

/-- The counter that a loop head on the line declares, in small letters. -/
def csharpCounter? (line : List Char) : Option (List Char) :=
  match forPattern.find? line with
  | some head =>
    (counterPattern.find? (head.part .content)).map fun m => Text.asciiLower (m.part .name)
  | none => none

/-! ## VB.NET -/

/-- `Dim name`. -/
def dimPattern : Pattern :=
  edge ++ word "Dim" ++ gap ++ named .name identifier

/-- `For name =`, with an optional type behind the name. -/
def forToPattern : Pattern :=
  edge ++ word "For" ++ gap ++ named .name identifier ++
    optional (gap ++ word "As" ++ gap ++ oneOrMore Text.isWordChar) ++ spaces ++ exactly '='

/-- The names on a line of VB.NET: its procedure, and then its variables. -/
def vbnetNames (line : List Char) : List (List Char × Role) :=
  let code := codeOnly line VisualBasic.commentMarker
  let procedures := (VisualBasic.procedureHeader? code).toList.map fun header =>
    (header.2.name, Role.callable)
  let locals := (dimPattern.allMatches code).map fun m => (m.part .name, Role.variable)
  procedures ++ locals

/-- The counter `i` or `j` that a loop on the line counts with, in small letters. -/
def vbnetCounter? (line : List Char) : Option (List Char) :=
  match forToPattern.find? line with
  | some m =>
    let name := Text.asciiLower (m.part .name)
    if name = ['i'] || name = ['j'] then some name else none
  | none => none

/-! ## T-SQL -/

/-- A table behind `FROM` or `JOIN`, and the word behind it. -/
def tableAliasPattern : Pattern :=
  edge ++ words ["FROM", "JOIN"] ++ gap ++ oneOrMore (!Text.isSpace ·) ++ gap ++
    optional (word "AS" ++ gap) ++ named .name identifier

/-- The word behind `AS`. -/
def asAliasPattern : Pattern :=
  edge ++ word "AS" ++ gap ++ named .name identifier

/-- Words that follow a table or `AS` without being aliases. -/
def nonAliases : List String :=
  ["where", "join", "inner", "left", "right", "outer", "cross", "full", "on", "group", "order",
   "having", "union", "with", "set", "values", "select", "into", "as", "and", "or", "not",
   "by", "go", "begin", "end", "when", "then", "else", "option", "for", "except", "intersect",
   "return", "returns", "declare", "int", "bigint", "smallint", "tinyint", "bit", "decimal",
   "numeric", "money", "float", "real", "date", "datetime", "datetime2", "time", "char",
   "varchar", "nchar", "nvarchar", "text", "uniqueidentifier", "table"]

/-- Whether a word is one of those, in any case. -/
def isNonAlias (word : List Char) : Bool :=
  nonAliases.any fun other => Text.sameIgnoringCase other.toList word

/-- Keeps the first of the names that are equal up to case. -/
def dedupIgnoringCase (seen : List (List Char)) : List (List Char) → List (List Char)
  | [] => []
  | name :: names =>
    if seen.any (Text.sameIgnoringCase · name) then dedupIgnoringCase seen names
    else name :: dedupIgnoringCase (name :: seen) names

/-- The aliases on a line: those of tables, and then those behind `AS`, each once. -/
def aliases (code : List Char) : List (List Char) :=
  let found := (tableAliasPattern.allMatches code ++ asAliasPattern.allMatches code).map
    fun m => m.part .name
  dedupIgnoringCase [] (found.filter fun name => !isNonAlias name)

/-- The names on a line of T-SQL: its aliases, and then its routine. -/
def sqlNames (line : List Char) : List (List Char × Role) :=
  let code := Text.beforeFirst TransactSql.commentMarker line
  let routines := (TransactSql.procedureHeader? code).toList.map fun header =>
    (header.name, Role.callable)
  (aliases code).map (fun name => (name, Role.variable)) ++ routines

/-! ## All dialects -/

/-- The names on a line. -/
def lineNames (dialect : Dialect) (line : List Char) : List (List Char × Role) :=
  match dialect with
  | .csharp => csharpNames line
  | .vbnet => vbnetNames line
  | .sql => sqlNames line
  | .unknown => []

/-- The loop counter that a line declares. -/
def lineCounter? (dialect : Dialect) (line : List Char) : Option (List Char) :=
  match dialect with
  | .csharp => csharpCounter? line
  | .vbnet => vbnetCounter? line
  | _ => none

/-- The names in a snippet, line by line. -/
def foundIn (snippet : Snippet) : List Found :=
  snippet.numberedLines.flatMap fun numbered =>
    (lineNames snippet.dialect numbered.1).map fun named => ⟨numbered.2, named.1, named.2⟩

/-- The loop counters of a snippet. -/
def countersOf (snippet : Snippet) : List (List Char) :=
  snippet.lines.filterMap (lineCounter? snippet.dialect)

/-- Names that say nothing of what they hold. -/
def genericNames : List String :=
  ["abc", "tmp", "temp", "test", "func", "data", "value", "var"]

/-- Whether a name is one of those, in any case. -/
def isGeneric (name : List Char) : Bool :=
  genericNames.any fun generic => Text.sameIgnoringCase generic.toList name

/-- Whether a name starts with an ASCII digit. -/
def startsWithDigit : List Char → Bool
  | c :: _ => c.isDigit
  | [] => false

/-- What is wrong with a name. -/
inductive Fault where
  /-- It starts with a digit. -/
  | startsWithDigit
  /-- It is too short for something callable. -/
  | shortCallable
  /-- It is too short for a variable. -/
  | shortVariable
  /-- It says nothing. -/
  | generic
  deriving DecidableEq, Repr

/-- The wording of a fault. -/
def Fault.message (name : String) : Fault → String
  | startsWithDigit => "Name '" ++ name ++ "' starts with a number."
  | shortCallable => "Function/method name '" ++ name ++ "' is too short."
  | shortVariable => "Variable name '" ++ name ++ "' is too short."
  | generic => "Name '" ++ name ++ "' is generic and non-descriptive."

/-- The faults of a name in order.  A leading digit is the only fault of its name; `excused`
lets a short variable pass. -/
def faults (name : List Char) (role : Role) (excused : Bool) : List Fault :=
  if startsWithDigit name then [.startsWithDigit]
  else
    (if role = .callable && name.length < 3 then [Fault.shortCallable] else []) ++
    (if role = .variable && name.length < 2 && !excused then [Fault.shortVariable] else []) ++
    (if isGeneric name then [Fault.generic] else [])

/-- The advice that every suggestion starts with. -/
def baseSuggestion : String :=
  "Use a meaningful verb/noun, e.g., 'CalculateLoanInterest' or 'ProcessData'."

/-- What to call things instead, by what the snippet is about. -/
def suggestion (snippet : Snippet) : String :=
  match snippet.dialect with
  | .sql =>
    if snippet.containsIgnoringCase "INSERT".toList then
      baseSuggestion ++ " For SQL, consider 'InsertRecord'."
    else if snippet.containsIgnoringCase "UPDATE".toList then
      baseSuggestion ++ " For SQL, consider 'UpdateRecord'."
    else baseSuggestion
  | .unknown => baseSuggestion
  | _ =>
    if LoanTerms.mentionedIn snippet.text then
      baseSuggestion ++
        " Given parameters like principal/rate/term, consider 'CalculateLoanInterest'."
    else baseSuggestion

/-- The issues for one name. -/
def issuesFor (counters : List (List Char)) (advice : String) (found : Found) : List Issue :=
  let excused := counters.contains (Text.asciiLower found.name)
  (faults found.name found.role excused).map fun fault =>
    { kind := "Naming.NonDescriptive"
      line := some found.line
      message := fault.message (String.ofList found.name)
      suggestion := advice
      severity := .info }

end Naming

namespace Rule

/-- Names that say nothing. -/
def nonDescriptiveNames : Rule where
  name := "Naming.NonDescriptive"
  family := .naming
  appliesTo := knownDialect
  severity := .info
  description := "Flags short, digit-leading, or generic identifiers"
  check := fun snippet =>
    (Naming.foundIn snippet).flatMap
      (Naming.issuesFor (Naming.countersOf snippet) (Naming.suggestion snippet))

end Rule
end LineLint
