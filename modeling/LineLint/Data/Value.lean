import LineLint.Data.Decimal

/-! # Data values

What a data file says, whatever format it is written in.  Objects keep their
members in the order in which they were written.
-/
namespace LineLint
namespace Data

/-- A value of a data file. -/
inductive Value where
  /-- The absence of a value. -/
  | null
  /-- A truth value. -/
  | bool (value : Bool)
  /-- A whole number. -/
  | int (value : Int)
  /-- A number that need not be whole. -/
  | fractional (value : Fractional)
  /-- A text. -/
  | string (value : String)
  /-- A list of values. -/
  | array (items : List Value)
  /-- Named values, in order. -/
  | object (members : List (String × Value))
  /-- Something well-formed that cannot be held: a number that is too large, a text with half a
  character in it, a value that is nested too deeply, or an object with a name that is no text.
  Of such an object the members in front of that name are kept. -/
  | unreadable (front : List (String × Value))
  deriving Repr

/-- The least number that is too large for 64 bits. -/
def wordBound : Nat := 0x10000000000000000

/-- The least number that is too large for 64 bits with a sign. -/
def signedBound : Nat := 0x8000000000000000

namespace Value

/-- The value of an optional text. -/
def ofOption {α : Type} (encode : α → Value) : Option α → Value
  | some a => encode a
  | none => null

end Value
end Data
end LineLint
