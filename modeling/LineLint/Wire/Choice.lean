import LineLint.Data.Table
import LineLint.Data.Value
import LineLint.Severity
import LineLint.Wire.Fault

/-! # Reading simple values from data

Formats differ in two points that matter here: what may stand for an absent
payload, and whether a list that stands for a structure may have items left
over.  `Format` records them.
-/
namespace LineLint
namespace Wire

open Data

/-- How a data format writes choices and structures. -/
structure Format where
  /-- Whether a value is an empty payload. -/
  isEmptyPayload : Value → Bool
  /-- Whether items may be left over in a list that stands for a structure. -/
  allowsLeftover : Bool

/-- JSON writes an empty payload as `null`, and leaves no items over. -/
def jsonFormat : Format where
  isEmptyPayload := fun
    | .null => true
    | _ => false
  allowsLeftover := false

/-- TOML writes an empty payload as an empty table or array, and does not mind items left
over. -/
def tomlFormat : Format where
  isEmptyPayload := fun
    | .array [] => true
    | .object [] => true
    | _ => false
  allowsLeftover := true

/-- Reads a text. -/
def decodeString : Value → Except Fault String
  | .string text => .ok text
  | _ => .error (.wrongKind "a string")

/-- Reads a truth value. -/
def decodeBool : Value → Except Fault Bool
  | .bool value => .ok value
  | _ => .error (.wrongKind "a boolean")

/-- Reads a count of at most 64 bits. -/
def decodeCount : Value → Except Fault Nat
  | .int value =>
    if 0 ≤ value && value < wordBound then .ok value.toNat else .error .outOfRange
  | _ => .error (.wrongKind "a whole number")

/-- Reads a value that may be absent. -/
def decodeOption {α : Type} (decode : Value → Except Fault α) : Value → Except Fault (Option α)
  | .null => .ok none
  | value => (decode value).map some

/-- Reads the items of a list. -/
def decodeItems {α : Type} (decode : Value → Except Fault α) :
    List Value → Except Fault (List α)
  | [] => .ok []
  | item :: items =>
    match decode item with
    | .error fault => .error fault
    | .ok first => (decodeItems decode items).map (first :: ·)

/-- Reads a list. -/
def decodeList {α : Type} (decode : Value → Except Fault α) : Value → Except Fault (List α)
  | .array items => decodeItems decode items
  | _ => .error (.wrongKind "a list")

/-- Reads a severity: its name, or an object with its name and an empty payload. -/
def decodeSeverity (format : Format) (value : Value) : Except Fault Severity :=
  let named (name : String) : Except Fault Severity :=
    match Severity.ofName? name with
    | some severity => .ok severity
    | none => .error (.noAlternative name)
  match value with
  | .string name => named name
  | .object [(name, payload)] =>
    match named name with
    | .ok severity =>
      if format.isEmptyPayload payload then .ok severity else .error (.wrongKind "nothing")
    | .error fault => .error fault
  | _ => .error (.wrongKind "a severity")

/-- Reads a dialect in any of its spellings. -/
def decodeDialect (value : Value) : Except Fault Dialect :=
  match decodeString value with
  | .error fault => .error fault
  | .ok text =>
    match Dialect.parse text with
    | .ok dialect => .ok dialect
    | .error error => .error (.unknownDialect error)

/-- The members of a structure, which may also be written as a list in the order of its
members.  Of an object with an unreadable name they are the ones in front of that name. -/
def membersOf (names : List String) (value : Value) : Except Fault (List (String × Value)) :=
  match value with
  | .object members => .ok members
  | .array items => .ok (names.zip items)
  | .unreadable front => .ok front
  | _ => .error (.wrongKind "a structure")

/-- Refuses what is behind the members of a structure: an unreadable name, or further items of
a list, unless the format allows them. -/
def refuseLeftover (format : Format) (names : List String) (value : Value) :
    Except Fault Unit :=
  match value with
  | .array items =>
    if names.length < items.length && !format.allowsLeftover then .error .leftover else .ok ()
  | .unreadable _ => .error .malformed
  | _ => .ok ()

end Wire
end LineLint
