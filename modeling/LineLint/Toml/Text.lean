import LineLint.Data.Numeral

/-! # Text in TOML

Comments, line endings, the four kinds of strings, and keys.  Every reader takes
the text from some place on and gives what it read with the text behind it, or
nothing if the text is ill-formed there.
-/
namespace LineLint
namespace Toml

open Data

/-- Whether a character may stand in comments and strings as it is: no control character but
the tab. -/
def isPlain (c : Char) : Bool :=
  c == '\t' || (0x20 ≤ c.toNat && c.toNat != 0x7F)

/-- Whether a character is a blank or a tab. -/
def isBlank (c : Char) : Bool :=
  c == ' ' || c == '\t'

/-- The text behind leading blanks. -/
def skipBlank (text : List Char) : List Char :=
  text.dropWhile isBlank

/-- The text behind a comment, if one starts here. -/
def skipComment : List Char → List Char
  | '#' :: rest => rest.dropWhile isPlain
  | text => text

/-- The text behind the end of a line: blanks, perhaps a comment, and a line ending or the end
of the text. -/
def endLine (text : List Char) : Option (List Char) :=
  match skipComment (skipBlank text) with
  | [] => some []
  | '\n' :: rest => some rest
  | '\r' :: '\n' :: rest => some rest
  | _ => none

/-- The text behind blanks, line endings and comments. -/
def skipLayout (inComment : Bool) : List Char → Option (List Char)
  | [] => some []
  | '\n' :: rest => skipLayout false rest
  | '\r' :: '\n' :: rest => skipLayout false rest
  | c :: rest =>
    if inComment then
      if isPlain c then skipLayout true rest else none
    else if isBlank c then skipLayout false rest
    else if c = '#' then skipLayout true rest
    else some (c :: rest)

/-! ## Strings -/

/-- The character that a letter behind a backslash stands for. -/
def unescape? (c : Char) : Option Char :=
  if c = '"' || c = '\\' then some c
  else if c = 'b' then some '\x08'
  else if c = 't' then some '\t'
  else if c = 'n' then some '\n'
  else if c = 'f' then some '\x0c'
  else if c = 'r' then some '\r'
  else none

/-- The character whose code point hexadecimal digits spell. -/
def charOfHex? (digits : List Char) : Option Char :=
  let code := Numeral.ofDigits 16 Numeral.hexValue digits
  if digits.all Numeral.isHexDigit && (code < 0xD800 || (0xDFFF < code && code < 0x110000)) then
    some (Char.ofNat code)
  else none

/-- A character in front of what is read next. -/
def consRead (c : Char) (read : Option (List Char × List Char)) :
    Option (List Char × List Char) :=
  read.map fun (contents, after) => (c :: contents, after)

/-- A basic string behind its opening quote. -/
def basicBody : List Char → Option (List Char × List Char)
  | [] => none
  | '"' :: rest => some ([], rest)
  | '\\' :: 'u' :: a :: b :: c :: d :: rest =>
    (charOfHex? [a, b, c, d]).bind fun char => consRead char (basicBody rest)
  | '\\' :: 'U' :: a :: b :: c :: d :: e :: f :: g :: h :: rest =>
    (charOfHex? [a, b, c, d, e, f, g, h]).bind fun char => consRead char (basicBody rest)
  | '\\' :: e :: rest => (unescape? e).bind fun char => consRead char (basicBody rest)
  | c :: rest => if isPlain c && c != '\\' then consRead c (basicBody rest) else none

/-- A literal string behind its opening quote. -/
def literalBody : List Char → Option (List Char × List Char)
  | [] => none
  | '\'' :: rest => some ([], rest)
  | c :: rest => if isPlain c then consRead c (literalBody rest) else none

/-- The end of a string over several lines, behind three quotes: up to two quotes more belong
to the string, which ends with the last three. -/
def closeBody (quote : Char) (rest : List Char) : Option (List Char × List Char) :=
  let extra := min 2 (rest.takeWhile (· == quote)).length
  some (List.replicate extra quote, rest.drop extra)

/-- Whether nothing but blanks stand on the rest of the line. -/
def endsLineHere (text : List Char) : Bool :=
  match skipBlank text with
  | '\n' :: _ => true
  | '\r' :: '\n' :: _ => true
  | _ => false

/-- A basic string over several lines, behind its opening quotes.  A backslash at the end of a
line swallows the white space up to the next character; `swallowing` is set on the way. -/
def multiBasicBody (swallowing : Bool) : List Char → Option (List Char × List Char)
  | [] => none
  | '"' :: '"' :: '"' :: rest => closeBody '"' rest
  | '\n' :: rest =>
    if swallowing then multiBasicBody true rest else consRead '\n' (multiBasicBody false rest)
  | '\r' :: '\n' :: rest =>
    if swallowing then multiBasicBody true rest else consRead '\n' (multiBasicBody false rest)
  | '\\' :: 'u' :: a :: b :: c :: d :: rest =>
    (charOfHex? [a, b, c, d]).bind fun char => consRead char (multiBasicBody false rest)
  | '\\' :: 'U' :: a :: b :: c :: d :: e :: f :: g :: h :: rest =>
    (charOfHex? [a, b, c, d, e, f, g, h]).bind fun char =>
      consRead char (multiBasicBody false rest)
  | '\\' :: '\n' :: rest => multiBasicBody true rest
  | '\\' :: '\r' :: '\n' :: rest => multiBasicBody true rest
  | '\\' :: e :: rest =>
    if isBlank e then
      if endsLineHere rest then multiBasicBody true rest else none
    else (unescape? e).bind fun char => consRead char (multiBasicBody false rest)
  | c :: rest =>
    if swallowing && isBlank c then multiBasicBody true rest
    else if isPlain c && c != '\\' then consRead c (multiBasicBody false rest)
    else none

/-- A literal string over several lines, behind its opening quotes. -/
def multiLiteralBody : List Char → Option (List Char × List Char)
  | [] => none
  | '\'' :: '\'' :: '\'' :: rest => closeBody '\'' rest
  | '\n' :: rest => consRead '\n' (multiLiteralBody rest)
  | '\r' :: '\n' :: rest => consRead '\n' (multiLiteralBody rest)
  | c :: rest => if isPlain c then consRead c (multiLiteralBody rest) else none

/-- The text behind a line ending, if one stands here. -/
def skipNewline : List Char → List Char
  | '\n' :: rest => rest
  | '\r' :: '\n' :: rest => rest
  | text => text

/-- A string of any kind. -/
def readString : List Char → Option (List Char × List Char)
  | '"' :: '"' :: '"' :: rest => multiBasicBody false (skipNewline rest)
  | '"' :: rest => basicBody rest
  | '\'' :: '\'' :: '\'' :: rest => multiLiteralBody (skipNewline rest)
  | '\'' :: rest => literalBody rest
  | _ => none

/-! ## Keys -/

/-- Most parts of a dotted key. -/
def maxKeyParts : Nat := 79

/-- Whether a character may stand in a key without quotes. -/
def isBareKeyChar (c : Char) : Bool :=
  c.isAlphanum || c == '_' || c == '-'

/-- One part of a key. -/
def readKeyPart (text : List Char) : Option (List Char × List Char) :=
  match text with
  | '"' :: rest => basicBody rest
  | '\'' :: rest => literalBody rest
  | _ =>
    let part := text.takeWhile isBareKeyChar
    if part.isEmpty then none else some (part, text.dropWhile isBareKeyChar)

/-- The parts of a key, with blanks around each; the length of the text bounds their
number. -/
def readKeyParts : Nat → List Char → Option (List String × List Char)
  | 0, _ => none
  | bound + 1, text =>
    match readKeyPart (skipBlank text) with
    | none => none
    | some (part, rest) =>
      match skipBlank rest with
      | '.' :: more =>
        (readKeyParts bound more).map fun (parts, after) =>
          (String.ofList part :: parts, after)
      | after => some ([String.ofList part], after)

/-- A key, which may be dotted. -/
def readKey (text : List Char) : Option (List String × List Char) :=
  match readKeyParts (text.length + 1) text with
  | some (parts, rest) => if parts.length ≤ maxKeyParts then some (parts, rest) else none
  | none => none

end Toml
end LineLint
