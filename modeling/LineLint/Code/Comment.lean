/-! # Comments and string contents of a line

A double quote opens a string and the next one closes it.  A comment runs from
the first marker outside of strings to the end of the line.  `codeOnly` leaves
neither comment nor string contents.
-/
namespace LineLint
namespace Code

/-- Cuts the text at the first `marker` outside of strings; `inString` tells whether the
text starts inside one. -/
def cutComment (marker : List Char) (inString : Bool) : List Char → List Char
  | [] => []
  | c :: rest =>
    if c = '"' then c :: cutComment marker (!inString) rest
    else if !inString && marker.isPrefixOf (c :: rest) then []
    else c :: cutComment marker inString rest

/-- A line without its comment. -/
def stripComment (line marker : List Char) : List Char :=
  cutComment marker false line

/-- Drops the contents of strings; `inString` tells whether the text starts inside one.  A
quote that no later quote answers opens no string. -/
def dropContents (inString : Bool) : List Char → List Char
  | [] => []
  | c :: rest =>
    if c = '"' then
      c :: dropContents (!inString && rest.contains '"') rest
    else if inString then dropContents true rest
    else c :: dropContents false rest

/-- A line with the contents of its strings taken out and the quotes kept. -/
def blankStrings (line : List Char) : List Char :=
  dropContents false line

/-- What a line says outside of strings and comments. -/
def codeOnly (line marker : List Char) : List Char :=
  stripComment (blankStrings line) marker

/-- The comment is cut off the end: what is left is a first part of the line. -/
theorem stripComment_prefix (line marker : List Char) : stripComment line marker <+: line := by
  suffices h : ∀ inString, cutComment marker inString line <+: line from h false
  induction line with
  | nil => simp [cutComment]
  | cons c rest ih =>
    intro inString
    unfold cutComment
    split
    · simpa using ih _
    · split
      · simp
      · simpa using ih _

end Code
end LineLint
