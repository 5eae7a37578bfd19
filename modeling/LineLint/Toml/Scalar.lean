import LineLint.Data.Numeral
import LineLint.Toml.Text

/-! # Scalars in TOML

Truth values, numbers, dates and times.  None of their characters separates
values, so a scalar is the longest run of such characters; only a time behind
its date may be set off by a blank.
-/
namespace LineLint
namespace Toml

open Data

/-- Whether a character belongs to scalars. -/
def isScalarChar (c : Char) : Bool :=
  c.isAlphanum || c == '_' || c == '+' || c == '-' || c == '.' || c == ':'

/-! ## Numbers -/

/-- Digits with single underscores between them, without the underscores. -/
def withoutUnderscores (accepts : Char → Bool) : List Char → Option (List Char)
  | [] => some []
  | c :: '_' :: d :: rest =>
    if accepts c && accepts d then (withoutUnderscores accepts (d :: rest)).map (c :: ·)
    else none
  | c :: rest => if c = '_' then none else (withoutUnderscores accepts rest).map (c :: ·)

/-- A whole number that fits into 64 bits with a sign. -/
def bounded (n : Int) : Option Value :=
  if -signedBound ≤ n && n < signedBound then some (.int n) else none

/-- A whole number in a base that a letter names, if the text starts like one. -/
def basedInteger? (text : List Char) : Option (Option Value) :=
  let read (base : Nat) (accepts : Char → Bool) (digits : List Char) : Option Value :=
    if digits.isEmpty then none
    else
      match withoutUnderscores accepts digits with
      | some plain =>
        if plain.all accepts then bounded (Numeral.ofDigits base Numeral.hexValue plain) else none
      | none => none
  match text with
  | '0' :: 'x' :: digits => some (read 16 Numeral.isHexDigit digits)
  | '0' :: 'o' :: digits => some (read 8 (fun c => '0' ≤ c && c ≤ '7') digits)
  | '0' :: 'b' :: digits => some (read 2 (fun c => c == '0' || c == '1') digits)
  | _ => none

/-- A number in decimal digits.  What is too large for double precision is refused, unless it
is negative. -/
def decimalNumber? (negative : Bool) (text : List Char) : Option Value :=
  match (withoutUnderscores Char.isDigit text).bind Numeral.read? with
  | none => none
  | some numeral =>
    if numeral.isInteger then
      let n : Int := Numeral.natOf numeral.whole
      bounded (if negative then -n else n)
    else
      match numeral.decimal.toBinary? with
      | some magnitude => some (.fractional (.finite negative magnitude))
      | none => if negative then some (.fractional (.infinity true)) else none

/-- A number behind its sign. -/
def signedNumber? (negative : Bool) (text : List Char) : Option Value :=
  if text = "inf".toList then some (.fractional (.infinity negative))
  else if text = "nan".toList then some (.fractional .undefined)
  else decimalNumber? negative text

/-- A number. -/
def number? (text : List Char) : Option Value :=
  match text with
  | '+' :: rest => signedNumber? false rest
  | '-' :: rest => signedNumber? true rest
  | _ =>
    match basedInteger? text with
    | some value => value
    | none => signedNumber? false text

/-! ## Dates and times -/

/-- The name that a date has as the only member of a table. -/
def dateMarker : String :=
  "$__toml_private_datetime"

/-- Reads a given number of digits. -/
def readDigits (count : Nat) (text : List Char) : Option (Nat × List Char) :=
  let digits := text.take count
  if digits.length = count && digits.all Char.isDigit then
    some (Numeral.natOf digits, text.drop count)
  else none

/-- Reads a given character. -/
def readChar (c : Char) (text : List Char) : Option (List Char) :=
  match text with
  | d :: rest => if d = c then some rest else none
  | [] => none

/-- Whether a year has a leap day. -/
def isLeapYear (year : Nat) : Bool :=
  year % 4 == 0 && (year % 100 != 0 || year % 400 == 0)

/-- Number of days in a month. -/
def daysInMonth (year month : Nat) : Nat :=
  if month = 2 then (if isLeapYear year then 29 else 28)
  else if month = 4 || month = 6 || month = 9 || month = 11 then 30
  else 31

/-- A number in at least so many digits. -/
def padded (width n : Nat) : List Char :=
  let digits := Decimal.digitsOf n
  List.replicate (width - digits.length) '0' ++ digits

/-- A date as it is written. -/
def readDate (text : List Char) : Option (List Char × List Char) := do
  let (year, text) ← readDigits 4 text
  let text ← readChar '-' text
  let (month, text) ← readDigits 2 text
  let text ← readChar '-' text
  let (day, text) ← readDigits 2 text
  if 1 ≤ month && month ≤ 12 && 1 ≤ day && day ≤ daysInMonth year month then
    some (padded 4 year ++ '-' :: padded 2 month ++ '-' :: padded 2 day, text)
  else none

/-- The fraction of a second, cut to nine digits and without trailing zeros. -/
def readFraction (text : List Char) : Option (List Char × List Char) :=
  match text with
  | '.' :: rest =>
    let digits := rest.takeWhile Char.isDigit
    if digits.isEmpty then none
    else
      let kept := ((digits.take 9).reverse.dropWhile (· == '0')).reverse
      some (if kept.isEmpty then [] else '.' :: kept, rest.dropWhile Char.isDigit)
  | _ => some ([], text)

/-- A time as it is written. -/
def readTime (text : List Char) : Option (List Char × List Char) := do
  let (hour, text) ← readDigits 2 text
  let text ← readChar ':' text
  let (minute, text) ← readDigits 2 text
  let text ← readChar ':' text
  let (second, text) ← readDigits 2 text
  let (fraction, text) ← readFraction text
  if hour ≤ 23 && minute ≤ 59 && second ≤ 60 then
    some (padded 2 hour ++ ':' :: padded 2 minute ++ ':' :: padded 2 second ++ fraction, text)
  else none

/-- The offset at the end of a time; an offset of zero has a plus sign. -/
def readOffset (text : List Char) : Option (List Char) :=
  match text with
  | [] => some []
  | ['Z'] => some ['Z']
  | ['z'] => some ['Z']
  | sign :: rest => do
    let (hour, rest) ← readDigits 2 rest
    let rest ← readChar ':' rest
    let (minute, rest) ← readDigits 2 rest
    if (sign = '+' || sign = '-') && hour ≤ 23 && minute ≤ 59 && rest.isEmpty then
      let shown := if hour = 0 && minute = 0 then '+' else sign
      some (shown :: padded 2 hour ++ ':' :: padded 2 minute)
    else none

/-- A date, a time, or a date with a time, in its usual form. -/
def date? (text : List Char) : Option (List Char) :=
  match readDate text with
  | some (date, []) => some date
  | some (date, separator :: rest) =>
    if separator = 'T' || separator = 't' || separator = ' ' then do
      let (time, rest) ← readTime rest
      let offset ← readOffset rest
      some (date ++ 'T' :: time ++ offset)
    else none
  | none =>
    match readTime text with
    | some (time, []) => some time
    | _ => none

/-! ## Scalars -/

/-- A date as a value. -/
def dateValue (text : List Char) : Value :=
  .object [(dateMarker, .string (String.ofList text))]

/-- Whether a text is a date without a time. -/
def isPlainDate (text : List Char) : Bool :=
  match readDate text with
  | some (_, []) => true
  | _ => false

/-- Whether a text starts with an hour. -/
def startsTime (text : List Char) : Bool :=
  match readDigits 2 text with
  | some (_, ':' :: _) => true
  | _ => false

/-- The value that a run of scalar characters stands for. -/
def scalar? (text : List Char) : Option Value :=
  if text = "true".toList then some (.bool true)
  else if text = "false".toList then some (.bool false)
  else
    match date? text with
    | some date => some (dateValue date)
    | none => number? text

/-- Reads a scalar. -/
def readScalar (text : List Char) : Option (Value × List Char) :=
  let run := text.takeWhile isScalarChar
  let rest := text.dropWhile isScalarChar
  match rest with
  | ' ' :: time =>
    if isPlainDate run && startsTime time then
      (date? (run ++ ' ' :: time.takeWhile isScalarChar)).map fun date =>
        (dateValue date, time.dropWhile isScalarChar)
    else (scalar? run).map fun value => (value, rest)
  | _ => (scalar? run).map fun value => (value, rest)

end Toml
end LineLint
