import LineLint.Data.Numeral

/-! # Numbers in JSON

A whole number is kept as it is if 64 bits hold it.  Any other number is worked out
in double precision: first its leading digits, then their product with a power of ten or
their quotient by one, and every step is rounded.  So a number of many digits may come out one unit
beside the nearest one.
-/
namespace LineLint
namespace Json

open Data

/-- Whether a character belongs to numerals. -/
def isNumeralChar (c : Char) : Bool :=
  c.isDigit || c == '-' || c == '+' || c == '.' || c == 'e' || c == 'E'

/-- Puts digits behind a number until one of them would make it too large for 64 bits.  Gives
the number and how many digits are left over. -/
def appendDigits (n : Nat) : List Char → Nat × Nat
  | [] => (n, 0)
  | c :: rest =>
    let next := n * 10 + Numeral.digitValue c
    if next < wordBound then appendDigits next rest else (n, rest.length + 1)

/-- The leading digits of a numeral, with the power of ten that they count.  Digits in front of the
point that are left over raise the power, and digits behind it that are used lower it. -/
def leadingDigits (numeral : Numeral) : Decimal :=
  let whole := appendDigits 0 numeral.whole
  let all := appendDigits whole.1 numeral.places
  let used := numeral.places.length - all.2
  ⟨all.1, numeral.power + whole.2 - used⟩

/-- The greatest power of ten in double precision. -/
def greatestPower : Nat := 308

/-- A number with its point moved to the left, in steps of at most the greatest power of ten. -/
def divideByTens (x : Binary) (zeros : Nat) : Binary :=
  if zeros ≤ greatestPower then x.div (.tenTo zeros)
  else if x.mantissa = 0 then x
  else divideByTens (x.div (.tenTo greatestPower)) (zeros - greatestPower)
termination_by zeros
decreasing_by simp only [greatestPower] at *; omega

/-- A number with its point moved to the right; nothing if that is too large. -/
def multiplyByTens? (x : Binary) (zeros : Nat) : Option Binary :=
  if x.mantissa = 0 then some x
  else if zeros ≤ greatestPower then
    let y := x.mul (.tenTo zeros)
    if y.isFinite then some y else none
  else none

/-- The number in double precision that a numeral is read as; nothing if it is too large. -/
def binary? (numeral : Numeral) : Option Binary :=
  let leading := leadingDigits numeral
  let start := Binary.nearest leading.digits 1
  if 0 ≤ leading.exponent then multiplyByTens? start leading.exponent.toNat
  else some (divideByTens start (-leading.exponent).toNat)

/-- The number that a numeral stands for.  Whole numbers beyond 64 bits and the negative zero
are not kept as whole numbers, and what is too large for double precision cannot be held. -/
def number (numeral : Numeral) (negative : Bool) : Value :=
  let n := Numeral.natOf numeral.whole
  if numeral.isInteger && !negative && n < wordBound then .int n
  else if numeral.isInteger && negative && 0 < n && n ≤ signedBound then .int (-n)
  else
    match binary? numeral with
    | some magnitude => .fractional (.finite negative magnitude)
    | none => .unreadable []

/-- The number that a text stands for. -/
def readNumber (text : List Char) : Option Value :=
  match text with
  | '-' :: digits => (Numeral.read? digits).map (number · true)
  | digits => (Numeral.read? digits).map (number · false)

end Json
end LineLint
