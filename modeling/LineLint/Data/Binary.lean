/-! # Numbers in double precision

Numbers without a sign whose mantissa has at most 53 bits.  Every operation gives the
number nearest to the exact result, and of two that are equally near the one with
the even mantissa.  The exact results are quotients of whole numbers.
-/
namespace LineLint
namespace Data

/-- The number `mantissa · 2 ^ exponent`. -/
structure Binary where
  /-- A whole number of at most 53 bits; fewer only if the exponent is the least one. -/
  mantissa : Nat
  /-- The power of two. -/
  exponent : Int
  deriving DecidableEq, Repr

namespace Binary

/-! ## Rounding -/

/-- A quotient rounded to the nearest whole number, a half to the even neighbour. -/
def roundDiv (a b : Nat) : Nat :=
  if 2 * (a % b) < b then a / b
  else if b < 2 * (a % b) then a / b + 1
  else a / b + a / b % 2

/-- The least exponent. -/
def leastExponent : Int := -1074

/-- The greatest exponent of a number that is not too large. -/
def greatestExponent : Int := 971

/-- The least whole number of 54 bits. -/
def mantissaBound : Nat := Nat.pow 2 53

/-- No number at all. -/
def zero : Binary :=
  ⟨0, leastExponent⟩

/-- The quotient `a / b` in units of a power of two, as a quotient again. -/
def inUnits (a b : Nat) (power : Int) : Nat × Nat :=
  if 0 ≤ power then (a, b * Nat.pow 2 power.toNat) else (a * Nat.pow 2 (-power).toNat, b)

/-- The greatest power of two that is at most `a / b`. -/
def leadingPower (a b : Nat) : Int :=
  let power : Int := (a.log2 : Int) - b.log2
  let units := inUnits a b power
  if units.2 ≤ units.1 then power else power - 1

/-- The number nearest to `a / b`. -/
def nearest (a b : Nat) : Binary :=
  if a = 0 then zero
  else
    let exponent := max leastExponent (leadingPower a b - 52)
    let units := inUnits a b exponent
    let mantissa := roundDiv units.1 units.2
    if mantissa = mantissaBound then ⟨mantissa / 2, exponent + 1⟩ else ⟨mantissa, exponent⟩

/-- Whether a number is not too large for double precision. -/
def isFinite (x : Binary) : Bool :=
  x.exponent ≤ greatestExponent

/-! ## Products and quotients -/

/-- A number as a quotient of whole numbers. -/
def quotient (x : Binary) : Nat × Nat :=
  if 0 ≤ x.exponent then (x.mantissa * Nat.pow 2 x.exponent.toNat, 1)
  else (x.mantissa, Nat.pow 2 (-x.exponent).toNat)

/-- The product of two numbers. -/
def mul (x y : Binary) : Binary :=
  nearest (x.quotient.1 * y.quotient.1) (x.quotient.2 * y.quotient.2)

/-- The quotient of two numbers, the second of which is not zero. -/
def div (x y : Binary) : Binary :=
  nearest (x.quotient.1 * y.quotient.2) (x.quotient.2 * y.quotient.1)

/-- The power of ten with so many zeros. -/
def tenTo (zeros : Nat) : Binary :=
  nearest (Nat.pow 10 zeros) 1

end Binary
end Data
end LineLint
