import LineLint.Pattern.Find
import LineLint.Text.Space

/-! # Building blocks of patterns

Keywords in any case, identifiers, and white space.  Ignoring case follows the
simple case folding of Unicode, by which two characters past ASCII count as
letters of the alphabet: `ſ` is an `s` and the Kelvin sign `K` a `k`.
-/
namespace LineLint
namespace Pattern

/-- A letter of the alphabet up to case folding. -/
def isLetter (c : Char) : Bool :=
  c.isAlpha || c == 'ſ' || c == '\u212A'

/-- A character that an identifier may start with. -/
def startsIdentifier (c : Char) : Bool :=
  isLetter c || c == '_'

/-- A character that an identifier may go on with. -/
def continuesIdentifier (c : Char) : Bool :=
  startsIdentifier c || c.isDigit

/-- Whether a character of a text is the letter of a keyword, in any case. -/
def foldsTo (letter c : Char) : Bool :=
  c.toLower == letter.toLower ||
    (c == 'ſ' && letter.toLower == 's') || (c == '\u212A' && letter.toLower == 'k')

/-- A keyword in any case. -/
def word (keyword : String) : Pattern :=
  sequence (keyword.toList.map fun letter => char (foldsTo letter))

/-- One keyword of a list in any case, an earlier one preferred. -/
def words (keywords : List String) : Pattern :=
  anyOf (keywords.map word)

/-- One given character. -/
def exactly (c : Char) : Pattern :=
  char (· == c)

/-- Everything in front of the next occurrence of a character. -/
def allBut (c : Char) : Pattern :=
  run (· != c)

/-- An identifier. -/
def identifier : Pattern :=
  char startsIdentifier ++ run continuesIdentifier

/-- White space, which may be missing. -/
def spaces : Pattern :=
  run Text.isSpace

/-- White space, at least one character of it. -/
def gap : Pattern :=
  oneOrMore Text.isSpace

end Pattern
end LineLint
