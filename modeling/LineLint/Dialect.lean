import LineLint.Text.Case
import LineLint.Text.Space

/-! # Dialects

The languages a snippet may be written in, and the spellings by which they are
named.
-/
namespace LineLint

/-- The language of a snippet. -/
inductive Dialect where
  /-- No language that is known here. -/
  | unknown
  /-- C#. -/
  | csharp
  /-- VB.NET. -/
  | vbnet
  /-- T-SQL. -/
  | sql
  deriving DecidableEq, Repr

/-- A text that names no dialect, in small letters and trimmed. -/
structure UnknownDialect where
  /-- The text. -/
  spelling : String
  deriving DecidableEq, Repr

/-- The wording of the error. -/
def UnknownDialect.message (error : UnknownDialect) : String :=
  "unknown dialect `" ++ error.spelling ++ "` (expected csharp, vbnet, sql, or unknown)"

namespace Dialect

/-- All dialects. -/
def all : List Dialect :=
  [unknown, csharp, vbnet, sql]

/-- The name of a dialect, with which the kinds of its findings begin. -/
def name : Dialect → String
  | unknown => "Unknown"
  | csharp => "CSharp"
  | vbnet => "VBNet"
  | sql => "SQL"

/-- The spellings of a dialect, in small letters. -/
def spellings : Dialect → List String
  | unknown => ["unknown", ""]
  | csharp => ["csharp", "cs", "c#"]
  | vbnet => ["vbnet", "vb", "vb.net"]
  | sql => ["sql", "tsql", "t-sql"]

/-- A text as the spellings are written: trimmed, and its ASCII letters made small. -/
def normalize (text : String) : String :=
  String.ofList (Text.asciiLower (Text.trim text.toList))

/-- Reads the name of a dialect in any of its spellings. -/
def parse (text : String) : Except UnknownDialect Dialect :=
  match all.find? fun dialect => dialect.spellings.contains (normalize text) with
  | some dialect => .ok dialect
  | none => .error ⟨normalize text⟩

end Dialect
end LineLint
