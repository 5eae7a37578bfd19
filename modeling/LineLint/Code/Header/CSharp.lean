import LineLint.Code.Header
import LineLint.Code.Comment
import LineLint.Pattern.Vocabulary

/-! # Headers of C#

A method header reads `type name(`.  Modifiers in front of it are words like the
type, but none of them is followed by a name and a parenthesis unless it takes
the place of the type, so a search for the first `type name(` passes them by
(`methodHeaders_eq_modified`).
Other uses of that shape (`else if (`, `return Compute(`) are told apart by the
words that cannot stand for a type or a name.
-/
namespace LineLint
namespace Code
namespace CSharp

open Pattern

/-- The marker of line comments. -/
def commentMarker : List Char := "//".toList

/-- Words that stand where a type or a declared name would without declaring anything. -/
def nonDeclarations : List String :=
  ["if", "else", "for", "foreach", "while", "do", "switch", "case", "catch", "using", "lock",
   "return", "new", "throw", "await", "yield", "goto", "when", "in", "is", "as", "typeof",
   "sizeof", "nameof", "default", "fixed", "checked", "unchecked", "class", "struct",
   "interface", "record", "enum", "namespace", "delegate", "event", "operator", "base", "this"]

/-- Whether a word is one of those.  They are written in small letters, so `Do` may be a
name. -/
def isNonDeclaration (word : List Char) : Bool :=
  nonDeclarations.any (·.toList == word)

/-- A character that a return type may go on with. -/
def continuesType (c : Char) : Bool :=
  continuesIdentifier c || "<>[]?.,".toList.contains c

/-- `type name(`, without the modifiers in front. -/
def methodPattern : Pattern :=
  edge ++ named .type (char startsIdentifier ++ run continuesType) ++ gap ++
    named .name identifier ++ spaces ++ exactly '('

/-- `class Name`. -/
def classPattern : Pattern :=
  edge ++ word "class" ++ gap ++ named .name identifier

/-- The header that a match of `methodPattern` stands for.  It declares no body if the line
opens no brace and the text behind the parameter list ends in a semicolon. -/
def headerOf (line : List Char) (m : Match) : Header :=
  match splitAtFirst ')' m.rest with
  | some (params, tail) =>
    { name := m.part .name
      params := some params
      bodiless := !line.contains '{' && (Text.trimEnd tail).getLast? == some ';' }
  | none => { name := m.part .name, params := none, bodiless := false }

/-- Whether a match of `methodPattern` declares a method. -/
def declares (m : Match) : Bool :=
  !isNonDeclaration (m.part .type) && !isNonDeclaration (m.part .name)

/-- All method headers on a line, from left to right. -/
def methodHeaders (line : List Char) : List Header :=
  ((methodPattern.allMatches line).filter declares).map (headerOf line)

/-- The first method header on a line. -/
def methodHeader? (line : List Char) : Option Header :=
  (methodHeaders line).head?

/-- The name that a class header on the line declares. -/
def className? (line : List Char) : Option (List Char) :=
  (classPattern.find? line).map (·.part .name)

/-- The first method header on a line once its comment is removed. -/
def codeHeader? (line : List Char) : Option Header :=
  methodHeader? (stripComment line commentMarker)

end CSharp
end Code
end LineLint
