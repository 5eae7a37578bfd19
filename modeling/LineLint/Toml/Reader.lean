import LineLint.Toml.Scalar
import LineLint.Toml.Tree

/-! # Reading TOML

Values and whole documents.  A document is a sequence of lines, each of which is
empty, sets a key in the current table, or names the table that is current from
there on.
-/
namespace LineLint
namespace Toml

open Data

/-- How deeply arrays and inline tables may be nested. -/
def maxDepth : Nat := 79

/-- The path in front of the last part of a key, and that part. -/
def splitKey (key : List String) : List String × String :=
  (key.dropLast, key.getLast?.getD "")

/-- Reads the items of an array up to its end; the length of the text bounds their number. -/
def readItems (item : List Char → Option (Value × List Char)) :
    Nat → List Char → Option (List Value × List Char)
  | 0, _ => none
  | bound + 1, text => do
    let text ← skipLayout false text
    match text with
    | ']' :: rest => some ([], rest)
    | _ =>
      let (first, rest) ← item text
      let rest ← skipLayout false rest
      match rest with
      | ',' :: more => (readItems item bound more).map fun (items, after) => (first :: items, after)
      | ']' :: after => some ([first], after)
      | _ => none

/-- Reads the members of an inline table up to its end into the entries given; the length of
the text bounds their number. -/
def readMembers (item : List Char → Option (Value × List Char)) :
    Nat → Entries → List Char → Option (Entries × List Char)
  | 0, _, _ => none
  | bound + 1, entries, text => do
    let (key, rest) ← readKey text
    let rest ← readChar '=' rest
    let (value, rest) ← item (skipBlank rest)
    let (path, last) := splitKey key
    let entries ← assign last value path true .header entries
    match skipBlank rest with
    | ',' :: more => readMembers item bound entries more
    | '}' :: after => some (entries, after)
    | _ => none

/-- Reads a value in which arrays and inline tables may be nested up to some depth. -/
def readValue : Nat → List Char → Option (Value × List Char)
  | 0, text =>
    match text with
    | '[' :: _ => none
    | '{' :: _ => none
    | c :: _ =>
      if c = '"' || c = '\'' then
        (readString text).map fun (contents, rest) => (.string (String.ofList contents), rest)
      else readScalar text
    | [] => none
  | depth + 1, text =>
    match text with
    | '[' :: rest =>
      (readItems (readValue depth) (rest.length + 1) rest).map fun (items, after) =>
        (.array items, after)
    | '{' :: rest =>
      match skipBlank rest with
      | '}' :: after => some (.object [], after)
      | start =>
        (readMembers (readValue depth) start.length [] start).map fun (entries, after) =>
          (.object (membersOf entries), after)
    | c :: _ =>
      if c = '"' || c = '\'' then
        (readString text).map fun (contents, rest) => (.string (String.ofList contents), rest)
      else readScalar text
    | [] => none

/-- A document while it is being read: the tables so far, and the path of the current one. -/
structure State where
  /-- The entries of the document. -/
  root : Entries
  /-- The path of the current table. -/
  current : List String

/-- Reads a header of either kind, behind its opening brackets, up to the end of its line. -/
def readHeader (close : List Char) (openLast : String → Entries → Option Entries)
    (state : State) (text : List Char) : Option (State × List Char) := do
  let (key, rest) ← readKey text
  if close.isPrefixOf rest then
    let after ← endLine (rest.drop close.length)
    let (path, last) := splitKey key
    let root ← changeAt (openLast last) path state.root
    some (⟨root, key⟩, after)
  else none

/-- Reads a key with its value up to the end of the line. -/
def readAssignment (state : State) (text : List Char) : Option (State × List Char) := do
  let (key, rest) ← readKey text
  let rest ← readChar '=' rest
  let (value, rest) ← readValue maxDepth (skipBlank rest)
  let after ← endLine rest
  let (path, last) := splitKey key
  let root ← changeAt (assign last value path true .header) state.current state.root
  some ({ state with root := root }, after)

/-- Reads one line; a comment line is an empty one. -/
def readLine (state : State) (text : List Char) : Option (State × List Char) :=
  match skipBlank text with
  | '[' :: '[' :: rest => readHeader [']', ']'] openItem state rest
  | '[' :: rest => readHeader [']'] openTable state rest
  | start =>
    match endLine start with
    | some after => some (state, after)
    | none => readAssignment state start

/-- Reads lines up to the end of the text, whose length bounds their number. -/
def readLines : Nat → State → List Char → Option State
  | _, state, [] => some state
  | 0, _, _ => none
  | bound + 1, state, text =>
    match readLine state text with
    | some (state, rest) => readLines bound state rest
    | none => none

/-- The text behind a byte order mark. -/
def skipByteOrderMark : List Char → List Char
  | '\uFEFF' :: rest => rest
  | text => text

/-- The value of a document; nothing if the text is no document. -/
def parse? (text : String) : Option Value :=
  let start := skipByteOrderMark text.toList
  (readLines (start.length + 1) ⟨[], []⟩ start).map fun state => .object (membersOf state.root)

end Toml
end LineLint
