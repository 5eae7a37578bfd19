import LineLint.Data.Value

/-! # Numerals in data files

The common grammar of decimal numerals: whole digits without a leading zero,
then perhaps a fraction, then perhaps an exponent.
-/
namespace LineLint
namespace Data

/-- A numeral without its sign, taken apart. -/
structure Numeral where
  /-- The digits in front of the point. -/
  whole : List Char
  /-- The digits behind the point, if there is one. -/
  fraction : Option (List Char)
  /-- The sign and digits of the exponent, if there is one. -/
  exponent : Option (Bool × List Char)
  deriving DecidableEq, Repr

namespace Numeral

/-- The number that digits of a base spell. -/
def ofDigits (base : Nat) (value : Char → Nat) (digits : List Char) : Nat :=
  digits.foldl (fun n c => n * base + value c) 0

/-- The value of a decimal digit. -/
def digitValue (c : Char) : Nat :=
  c.toNat - '0'.toNat

/-- The value of a hexadecimal digit. -/
def hexValue (c : Char) : Nat :=
  if c.isDigit then digitValue c else c.toLower.toNat - 'a'.toNat + 10

/-- Whether a character is a hexadecimal digit. -/
def isHexDigit (c : Char) : Bool :=
  c.isDigit || ('a' ≤ c.toLower && c.toLower ≤ 'f')

/-- The number that decimal digits spell. -/
def natOf (digits : List Char) : Nat :=
  ofDigits 10 digitValue digits

/-- Whether there are digits, without a needless leading zero. -/
def isWhole (digits : List Char) : Bool :=
  !digits.isEmpty && (digits == ['0'] || digits.head? != some '0')

/-- The exponent at the start of a text; nothing at all if the text is empty, and no result if
it is ill-formed. -/
def readExponent : List Char → Option (Option (Bool × List Char))
  | [] => some none
  | e :: rest =>
    if e = 'e' || e = 'E' then
      let signed : Bool × List Char :=
        match rest with
        | '-' :: digits => (true, digits)
        | '+' :: digits => (false, digits)
        | digits => (false, digits)
      if !signed.2.isEmpty && signed.2.all Char.isDigit then some (some signed) else none
    else none

/-- Takes an unsigned numeral apart; no result if the text is none. -/
def read? (text : List Char) : Option Numeral :=
  let whole := text.takeWhile Char.isDigit
  if isWhole whole then
    match text.dropWhile Char.isDigit with
    | '.' :: rest =>
      let fraction := rest.takeWhile Char.isDigit
      if fraction.isEmpty then none
      else (readExponent (rest.dropWhile Char.isDigit)).map fun exponent =>
        ⟨whole, some fraction, exponent⟩
    | rest => (readExponent rest).map fun exponent => ⟨whole, none, exponent⟩
  else none

/-- Whether a numeral is written as a whole number. -/
def isInteger (numeral : Numeral) : Bool :=
  numeral.fraction.isNone && numeral.exponent.isNone

/-- The power of ten that is written as the exponent. -/
def power (numeral : Numeral) : Int :=
  match numeral.exponent with
  | some (true, digits) => -(natOf digits : Int)
  | some (false, digits) => natOf digits
  | none => 0

/-- The digits behind the point. -/
def places (numeral : Numeral) : List Char :=
  numeral.fraction.getD []

/-- The number that a numeral stands for. -/
def decimal (numeral : Numeral) : Decimal where
  digits := natOf (numeral.whole ++ numeral.places)
  exponent := numeral.power - numeral.places.length

end Numeral
end Data
end LineLint
