import LineLint.Dialect

/-! # Faults in data

Why a data file cannot be read as what it should be.
-/
namespace LineLint
namespace Wire

/-- Why data cannot be read. -/
inductive Fault where
  /-- The text does not follow its format. -/
  | malformed
  /-- A value is of the wrong kind. -/
  | wrongKind (expected : String)
  /-- A number is out of range. -/
  | outOfRange
  /-- A member is missing. -/
  | missing (member : String)
  /-- A member occurs twice. -/
  | duplicate (member : String)
  /-- A list has more items than there are members. -/
  | leftover
  /-- A text names no alternative of a choice. -/
  | noAlternative (name : String)
  /-- A text names no dialect. -/
  | unknownDialect (error : UnknownDialect)
  deriving DecidableEq, Repr

/-- The wording of a fault. -/
def Fault.message : Fault → String
  | malformed => "the text is malformed"
  | wrongKind expected => "expected " ++ expected
  | outOfRange => "number out of range"
  | missing member => "missing member '" ++ member ++ "'"
  | duplicate member => "duplicate member '" ++ member ++ "'"
  | leftover => "too many items"
  | noAlternative name => "unknown alternative '" ++ name ++ "'"
  | unknownDialect error => error.message

end Wire
end LineLint
