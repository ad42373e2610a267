import PhpDriver.Util.Inet

namespace PhpDriver

open Data

/-! `php_driver_parse_bigint` of `util/math.c`, and the function of the C library it rests
on. -/

/-- What `strtoull` returns, how far it got, and whether it set `ERANGE`. -/
structure Converted where
  value : Nat
  length : Nat
  outOfRange : Bool
deriving DecidableEq

def isDigitOf (base : Nat) (char : UInt8) : Bool :=
  isXDigit char && xdigitValue char < base

def conversionBase (base : Nat) (text : List UInt8) : Nat × Nat :=
  let hex := charAt text 0 = '0'.toUInt8 ∧
    (charAt text 1 = 'x'.toUInt8 ∨ charAt text 1 = 'X'.toUInt8) ∧ isXDigit (charAt text 2)
  if (base = 0 ∨ base = 16) ∧ hex then (16, 2)
  else if base = 0 then (if charAt text 0 = '0'.toUInt8 then 8 else 10, 0)
  else (base, 0)

def strtoull (text : List UInt8) (base : Nat) : Converted :=
  let spaces := (text.takeWhile isSpace).length
  let text := text.drop spaces
  let negative := charAt text 0 = '-'.toUInt8
  let sign := if negative ∨ charAt text 0 = '+'.toUInt8 then 1 else 0
  let text := text.drop sign
  let (base, skipped) := conversionBase base text
  let digits := (text.drop skipped).takeWhile (isDigitOf base)
  if digits = [] then { value := 0, length := 0, outOfRange := false }
  else
    let value := Nat.ofDigits base (digits.reverse.map xdigitValue)
    let length := spaces + sign + skipped + digits.length
    if 2 ^ 64 ≤ value then { value := 2 ^ 64 - 1, length, outOfRange := true }
    else { value := if negative then (2 ^ 64 - value) % 2 ^ 64 else value, length,
           outOfRange := false }

/-- The exceptions of the parsers of integers and of floats, which also quote the text. -/
inductive NumberError where
  /-- `value must be between %d and %d, %s given`, or for a float
  `Value is too small or too big for float: '%s'`. -/
  | range
  /-- `Invalid integer value: '%s'` or `Invalid float value: '%s'`. -/
  | invalidNumber
  /-- `Invalid characters were found in value: '%s'`. -/
  | invalidCharacters
deriving DecidableEq

def magnitudeLimit (negative : Bool) : Nat :=
  if negative then 2 ^ 63 else 2 ^ 63 - 1

def parseBigint (input : List UInt8) : Except NumberError Int :=
  let (base, pos, negative) := prepareStringConversion input
  let converted := strtoull (input.drop pos) base
  if converted.outOfRange ∨ magnitudeLimit negative < converted.value then .error .range
  else if converted.length = 0 then .error .invalidNumber
  else if pos + converted.length ≠ input.length then .error .invalidCharacters
  else .ok (if negative then -converted.value else converted.value)

example : parseBigint (ascii "-0x10") = .ok (-16) := by decide +kernel

end PhpDriver
