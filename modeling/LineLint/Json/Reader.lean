import LineLint.Json.Number

/-! # Reading JSON

A text is read from front to back.  `scan` gives what was read up to the first
fault, with the containers that were open there closed, so that a reader can
judge a value before the text behind it; `parse?` gives the value of a text
without faults.
-/
namespace LineLint
namespace Json

open Data

/-- How deeply containers may be nested. -/
def maxDepth : Nat := 127

/-- Whether a character may stand between tokens. -/
def isBlank (c : Char) : Bool :=
  c == ' ' || c == '\t' || c == '\n' || c == '\r'

/-- The text behind leading blanks. -/
def skipBlank (text : List Char) : List Char :=
  text.dropWhile isBlank

/-! ## Strings -/

/-- A piece of a string: a character, or a unit of UTF-16 written in hexadecimal. -/
inductive Piece where
  | char (c : Char)
  | unit (code : Nat)
  deriving DecidableEq, Repr

/-- The character that a letter behind a backslash stands for. -/
def unescape? (c : Char) : Option Char :=
  if c = '"' || c = '\\' || c = '/' then some c
  else if c = 'n' then some '\n'
  else if c = 'r' then some '\r'
  else if c = 't' then some '\t'
  else if c = 'b' then some '\x08'
  else if c = 'f' then some '\x0c'
  else none

/-- The pieces up to the closing quote, and the text behind it. -/
def scanPieces : List Char → Option (List Piece × List Char)
  | [] => none
  | '"' :: rest => some ([], rest)
  | '\\' :: 'u' :: a :: b :: c :: d :: rest =>
    if [a, b, c, d].all Numeral.isHexDigit then
      (scanPieces rest).map fun (pieces, after) =>
        (.unit (Numeral.ofDigits 16 Numeral.hexValue [a, b, c, d]) :: pieces, after)
    else none
  | '\\' :: e :: rest =>
    match unescape? e with
    | some c => (scanPieces rest).map fun (pieces, after) => (.char c :: pieces, after)
    | none => none
  | c :: rest =>
    if c.toNat < 0x20 || c = '\\' then none
    else (scanPieces rest).map fun (pieces, after) => (.char c :: pieces, after)

/-- Whether a unit is the first half of a pair. -/
def isHighSurrogate (code : Nat) : Bool :=
  0xD800 ≤ code && code < 0xDC00

/-- Whether a unit is the second half of a pair. -/
def isLowSurrogate (code : Nat) : Bool :=
  0xDC00 ≤ code && code < 0xE000

/-- The characters that pieces stand for; halves of pairs must not stand alone. -/
def joinPieces : List Piece → Option (List Char)
  | [] => some []
  | .char c :: pieces => (joinPieces pieces).map (c :: ·)
  | .unit high :: .unit low :: pieces =>
    if isHighSurrogate high then
      if isLowSurrogate low then
        (joinPieces pieces).map
          (Char.ofNat (0x10000 + (high - 0xD800) * 0x400 + (low - 0xDC00)) :: ·)
      else none
    else if isLowSurrogate high then none
    else (joinPieces (.unit low :: pieces)).map (Char.ofNat high :: ·)
  | .unit code :: pieces =>
    if isHighSurrogate code || isLowSurrogate code then none
    else (joinPieces pieces).map (Char.ofNat code :: ·)

/-- The string whose opening quote has been read, if it is a text, and what is behind it. -/
def scanString (text : List Char) : Option (Option String × List Char) :=
  (scanPieces text).map fun (pieces, rest) => ((joinPieces pieces).map String.ofList, rest)

/-! ## Values -/

/-- What was read: a value, unless a fault came before it, and the text behind it, unless a
fault came inside it. -/
structure Scan (α : Type) where
  /-- What was read up to the fault. -/
  value : α
  /-- The text behind the value. -/
  rest : Option (List Char)

/-- A fault in front of any value. -/
def Scan.fault : Scan (Option Value) :=
  ⟨none, none⟩

/-- Reads a word of letters. -/
def scanWord (text : List Char) : Scan (Option Value) :=
  let after := text.dropWhile Char.isAlpha
  match String.ofList (text.takeWhile Char.isAlpha) with
  | "null" => ⟨some .null, some after⟩
  | "true" => ⟨some (.bool true), some after⟩
  | "false" => ⟨some (.bool false), some after⟩
  | _ => .fault

/-- Reads a value that holds no others, at the start of a text. -/
def scanScalar (text : List Char) : Scan (Option Value) :=
  match text with
  | '"' :: rest =>
    match scanString rest with
    | some (some contents, after) => ⟨some (.string contents), some after⟩
    | some (none, after) => ⟨some (.unreadable []), some after⟩
    | none => .fault
  | c :: _ =>
    if c.isAlpha then scanWord text
    else
      match readNumber (text.takeWhile isNumeralChar) with
      | some value => ⟨some value, some (text.dropWhile isNumeralChar)⟩
      | none => .fault
  | [] => .fault

/-- Reads the items of an array, the first one being at the start of the text.  Each item takes
a character or more, so the length of the text bounds their number. -/
def scanItems (item : List Char → Scan (Option Value)) :
    Nat → List Char → Scan (List Value)
  | 0, _ => ⟨[], none⟩
  | bound + 1, text =>
    let first := item text
    match first.rest with
    | none => ⟨first.value.toList, none⟩
    | some rest =>
      match skipBlank rest with
      | ',' :: more =>
        let others := scanItems item bound more
        ⟨first.value.toList ++ others.value, others.rest⟩
      | ']' :: after => ⟨first.value.toList, some after⟩
      | _ => ⟨first.value.toList, none⟩

/-- Reads the name of a member, if it is a text, with the colon behind it. -/
def scanName (text : List Char) : Option (Option String × List Char) :=
  match skipBlank text with
  | '"' :: inner =>
    match scanString inner with
    | some (name, rest) =>
      match skipBlank rest with
      | ':' :: after => some (name, after)
      | _ => none
    | none => none
  | _ => none

/-- An object with one more member in front.  An object ends for good where a name is no
text. -/
def withMember (name : Option String) (value : Option Value) (others : Value) : Value :=
  match name, value, others with
  | none, _, _ => .unreadable []
  | some name, some value, .object members => .object ((name, value) :: members)
  | some name, some value, .unreadable front => .unreadable ((name, value) :: front)
  | some _, _, _ => others

/-- Reads the members of an object, the first one being at the start of the text. -/
def scanMembers (item : List Char → Scan (Option Value)) : Nat → List Char → Scan Value
  | 0, _ => ⟨.object [], none⟩
  | bound + 1, text =>
    match scanName text with
    | none => ⟨.object [], none⟩
    | some (name, rest) =>
      let first := item rest
      match first.rest with
      | none => ⟨withMember name first.value (.object []), none⟩
      | some rest =>
        match skipBlank rest with
        | ',' :: more =>
          let others := scanMembers item bound more
          ⟨withMember name first.value others.value, others.rest⟩
        | '}' :: after => ⟨withMember name first.value (.object []), some after⟩
        | _ => ⟨withMember name first.value (.object []), none⟩

/-! ### Values that are passed over -/

/-- A kind of container. -/
inductive Container where
  /-- An array. -/
  | array
  /-- An object. -/
  | object
  deriving DecidableEq, Repr

/-- Passes over a value up to its end, however deeply containers are nested in it.  `opened` are
the containers that are open, the innermost first, and `expectant` tells whether a value comes next;
the length of the text bounds the number of steps. -/
def passOver : Nat → List Container → Bool → List Char → Option (List Char)
  | 0, _, _, _ => none
  | bound + 1, opened, true, text =>
    match skipBlank text with
    | '[' :: rest =>
      match skipBlank rest with
      | ']' :: after => passOver bound opened false after
      | start => passOver bound (.array :: opened) true start
    | '{' :: rest =>
      match skipBlank rest with
      | '}' :: after => passOver bound opened false after
      | start =>
        match scanName start with
        | some (_, after) => passOver bound (.object :: opened) true after
        | none => none
    | start =>
      match (scanScalar start).rest with
      | some after => passOver bound opened false after
      | none => none
  | _ + 1, [], false, text => some text
  | bound + 1, container :: opened, false, text =>
    match container, skipBlank text with
    | .array, ']' :: after => passOver bound opened false after
    | .array, ',' :: more => passOver bound (.array :: opened) true more
    | .object, '}' :: after => passOver bound opened false after
    | .object, ',' :: more =>
      match scanName more with
      | some (_, after) => passOver bound (.object :: opened) true after
      | none => none
    | _, _ => none

/-- Reads a container that is nested too deeply. -/
def scanTooDeep (text : List Char) : Scan (Option Value) :=
  ⟨some (.unreadable []), passOver (text.length + 1) [] true text⟩

/-! ### Whole texts -/

/-- Reads a value in which containers may be nested up to some depth. -/
def scanValue : Nat → List Char → Scan (Option Value)
  | 0, text =>
    match skipBlank text with
    | '[' :: rest => scanTooDeep ('[' :: rest)
    | '{' :: rest => scanTooDeep ('{' :: rest)
    | start => scanScalar start
  | depth + 1, text =>
    match skipBlank text with
    | '[' :: rest =>
      match skipBlank rest with
      | ']' :: after => ⟨some (.array []), some after⟩
      | start =>
        let items := scanItems (scanValue depth) start.length start
        ⟨some (.array items.value), items.rest⟩
    | '{' :: rest =>
      match skipBlank rest with
      | '}' :: after => ⟨some (.object []), some after⟩
      | start =>
        let members := scanMembers (scanValue depth) start.length start
        ⟨some members.value, members.rest⟩
    | start => scanScalar start

/-- What a text was read as, and whether the whole text was read without a fault. -/
structure Document where
  /-- The value up to the first fault. -/
  value : Option Value
  /-- Whether there was no fault. -/
  complete : Bool

/-- Reads a text up to its first fault. -/
def scan (text : List Char) : Document :=
  let read := scanValue maxDepth text
  match read.rest with
  | some rest => ⟨read.value, (skipBlank rest).isEmpty⟩
  | none => ⟨read.value, false⟩

/-- The value of a text without faults. -/
def parse? (text : String) : Option Value :=
  let document := scan text.toList
  if document.complete then document.value else none

end Json
end LineLint
