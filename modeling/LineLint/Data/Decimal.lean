import LineLint.Data.Binary

/-! # Decimal numerals

Numbers with a fraction or an exponent.  They are kept in double precision:
`Decimal.toBinary?` reads a numeral and `Decimal.ofBinary` gives the shortest one that
reads back.
-/
namespace LineLint
namespace Data

/-- The numeral `digits · 10 ^ exponent`. -/
structure Decimal where
  /-- The digits, read as a whole number. -/
  digits : Nat
  /-- The power of ten. -/
  exponent : Int
  deriving DecidableEq, Repr

/-- A number that need not be whole. -/
inductive Fractional where
  /-- A number with its sign; zero has one, too. -/
  | finite (negative : Bool) (magnitude : Binary)
  /-- An infinity. -/
  | infinity (negative : Bool)
  /-- No number at all. -/
  | undefined
  deriving DecidableEq, Repr

namespace Decimal

/-- The digits of a whole number. -/
def digitsOf (n : Nat) : List Char :=
  (Nat.repr n).toList

/-! ## Reading in double precision -/

/-- The number nearest to a numeral that is neither very large nor very small. -/
def nearest (x : Decimal) : Binary :=
  if 0 ≤ x.exponent then Binary.nearest (x.digits * Nat.pow 10 x.exponent.toNat) 1
  else Binary.nearest x.digits (Nat.pow 10 (-x.exponent).toNat)

/-- The number nearest to a numeral; nothing if it is too large.  Numerals whose size is plain
from their length are not worked out. -/
def toBinary? (x : Decimal) : Option Binary :=
  let size : Int := (digitsOf x.digits).length + x.exponent
  if x.digits = 0 || size < -330 then some .zero
  else if 310 < size then none
  else if x.nearest.isFinite then some x.nearest
  else none

/-! ## Shortest numerals -/

/-- The numeral for exactly a number. -/
def exactly (x : Binary) : Decimal :=
  if 0 ≤ x.exponent then ⟨x.mantissa * Nat.pow 2 x.exponent.toNat, 0⟩
  else ⟨x.mantissa * Nat.pow 5 (-x.exponent).toNat, x.exponent⟩

/-- The two numerals next to `x` that leave out so many of its digits, the nearer one first. -/
def neighbours (x : Decimal) (left : Nat) : List Decimal :=
  let unit := Nat.pow 10 left
  let below : Decimal := ⟨x.digits / unit, x.exponent + left⟩
  let above : Decimal := ⟨x.digits / unit + 1, x.exponent + left⟩
  if 2 * (x.digits % unit) ≤ unit then [below, above] else [above, below]

/-- The nearest of the shortest numerals that read back as a number. -/
def ofBinary (x : Binary) : Decimal :=
  if x.mantissa = 0 then ⟨0, 0⟩
  else
    let exact := exactly x
    let shorter := fun left => (exact.neighbours left).find? fun candidate => candidate.nearest = x
    let lengths := List.range ((digitsOf exact.digits).length + 1)
    (lengths.reverse.findSome? shorter).getD exact

/-! ## Writing -/

/-- Digits with a point behind so many of them. -/
def withPoint (digits : List Char) (places : Nat) : List Char :=
  digits.take places ++ '.' :: digits.drop places

/-- A numeral as text.  The point is put at its place if that is among the first sixteen digits or
has up to four zeros behind it; otherwise there is an exponent. -/
def render (x : Decimal) : List Char :=
  let digits := digitsOf x.digits
  let point : Int := digits.length + x.exponent
  if 0 ≤ x.exponent && point ≤ 16 then
    digits ++ List.replicate x.exponent.toNat '0' ++ ".0".toList
  else if 0 < point && point ≤ 16 then withPoint digits point.toNat
  else if -5 < point && point ≤ 0 then
    "0.".toList ++ List.replicate (-point).toNat '0' ++ digits
  else
    let shown := if digits.length = 1 then digits else withPoint digits 1
    shown ++ 'e' :: (toString (point - 1)).toList

end Decimal
end Data
end LineLint
