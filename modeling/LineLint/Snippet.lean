import LineLint.Dialect
import LineLint.Issue
import LineLint.Text.Lines
import LineLint.Text.Search

/-! # Snippets

A snippet is a text with the dialect it is reviewed as.  Its lines are those of
the line table, so their numbers are the ones an editor shows.
-/
namespace LineLint

/-- A text and the dialect it is reviewed as. -/
structure Snippet where
  /-- The text. -/
  text : List Char
  /-- The dialect. -/
  dialect : Dialect

/-- An issue laid out for display in its source: a stretch of the text is marked. -/
structure Diagnostic where
  /-- Severity and message. -/
  headline : String
  /-- The suggestion, if there is one. -/
  help : Option String
  /-- What stands at the mark. -/
  label : String
  /-- Where the mark starts, in bytes. -/
  offset : Nat
  /-- How long the mark is, in bytes. -/
  length : Nat
  deriving DecidableEq, Repr

namespace Snippet

/-- The lines of the snippet. -/
def lines (snippet : Snippet) : List (List Char) :=
  Text.lines snippet.text

/-- The lines with their numbers, counted from one. -/
def numberedLines (snippet : Snippet) : List (List Char × Nat) :=
  snippet.lines.zipIdx 1

/-- Whether the snippet holds nothing but white space. -/
def isBlank (snippet : Snippet) : Bool :=
  Text.isBlank snippet.text

/-- Whether `needle` occurs in the text, both in small letters. -/
def containsIgnoringCase (snippet : Snippet) (needle : List Char) : Bool :=
  Text.contains (Text.lower snippet.text) (Text.lower needle)

/-- Where a line starts, in bytes: the start of the text for line zero, and its end for a
line that is not there. -/
def offsetOf (snippet : Snippet) (number : Nat) : Nat :=
  match number with
  | 0 => 0
  | index + 1 => (Text.lineStarts snippet.text)[index]?.getD (Text.byteLength snippet.text)

/-- Marks the line of an issue; an issue without a line marks nothing at the start. -/
def diagnostic (snippet : Snippet) (issue : Issue) : Diagnostic :=
  { headline := issue.severity.word ++ ": " ++ issue.message
    help := if issue.suggestion.isEmpty then none else some issue.suggestion
    label := issue.kind
    offset := match issue.line with
      | some number => snippet.offsetOf number
      | none => 0
    length := match issue.line with
      | some number => (snippet.lines[number - 1]?.map Text.byteLength).getD 0
      | none => 0 }

end Snippet
end LineLint
