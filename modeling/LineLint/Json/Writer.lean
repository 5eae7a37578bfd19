import LineLint.Data.Value

/-! # Writing JSON

A value is written either on one line or with every member on a line of its own.
-/
namespace LineLint
namespace Json

open Data

/-- A hexadecimal digit in small letters. -/
def hexDigit (n : Nat) : Char :=
  if n < 10 then Char.ofNat ('0'.toNat + n) else Char.ofNat ('a'.toNat + (n - 10))

/-- A character as it is written between quotes: quotes, backslashes and control characters
are escaped, and nothing else. -/
def escapeChar (c : Char) : List Char :=
  if c = '"' then ['\\', '"']
  else if c = '\\' then ['\\', '\\']
  else if c = '\n' then ['\\', 'n']
  else if c = '\r' then ['\\', 'r']
  else if c = '\t' then ['\\', 't']
  else if c = '\x08' then ['\\', 'b']
  else if c = '\x0c' then ['\\', 'f']
  else if c.toNat < 0x20 then
    ['\\', 'u', '0', '0', hexDigit (c.toNat / 16), hexDigit (c.toNat % 16)]
  else [c]

/-- A text between quotes. -/
def quote (text : List Char) : List Char :=
  '"' :: text.flatMap escapeChar ++ ['"']

/-- How values are laid out. -/
structure Layout where
  /-- What stands in front of an item at some depth. -/
  newline : Nat → List Char
  /-- What stands between the name and the value of a member. -/
  colon : List Char

/-- Everything on one line. -/
def oneLine : Layout :=
  ⟨fun _ => [], [':']⟩

/-- Every item on a line of its own, indented by two blanks for each depth. -/
def indented : Layout :=
  ⟨fun depth => '\n' :: List.replicate (2 * depth) ' ', [':', ' ']⟩

/-- A number that need not be whole; what no numeral stands for is written `null`. -/
def writeFractional : Fractional → List Char
  | .finite negative magnitude =>
    (if negative then ['-'] else []) ++ (Decimal.ofBinary magnitude).render
  | .infinity _ => "null".toList
  | .undefined => "null".toList

mutual

/-- Writes a value that stands at some depth; one that could not be held is written `null`. -/
def write (layout : Layout) (depth : Nat) : Value → List Char
  | .null => "null".toList
  | .bool true => "true".toList
  | .bool false => "false".toList
  | .int value => (toString value).toList
  | .fractional value => writeFractional value
  | .string text => quote text.toList
  | .array [] => ['[', ']']
  | .array items => '[' :: writeItems layout (depth + 1) true items ++ layout.newline depth ++ [']']
  | .object [] => ['{', '}']
  | .object members =>
    '{' :: writeMembers layout (depth + 1) true members ++ layout.newline depth ++ ['}']
  | .unreadable _ => "null".toList

/-- Writes the items of an array; each but the first comes behind a comma. -/
def writeItems (layout : Layout) (depth : Nat) (first : Bool) : List Value → List Char
  | [] => []
  | item :: items =>
    (if first then [] else [',']) ++ layout.newline depth ++ write layout depth item ++
      writeItems layout depth false items

/-- Writes the members of an object; each but the first comes behind a comma. -/
def writeMembers (layout : Layout) (depth : Nat) (first : Bool) :
    List (String × Value) → List Char
  | [] => []
  | (name, value) :: members =>
    (if first then [] else [',']) ++ layout.newline depth ++ quote name.toList ++ layout.colon ++
      write layout depth value ++ writeMembers layout depth false members

end

/-- A value on one line. -/
def render (value : Value) : String :=
  String.ofList (write oneLine 0 value)

/-- A value with indentation. -/
def renderIndented (value : Value) : String :=
  String.ofList (write indented 0 value)

end Json
end LineLint
