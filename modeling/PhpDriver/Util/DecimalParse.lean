import Mathlib.Data.List.TakeWhile
import PhpDriver.Data.CInt
import PhpDriver.Gmp

namespace PhpDriver

open Data

/-! `php_driver_parse_decimal` of `util/math.c`. A PHP string is its bytes; the
terminator behind them is read as a zero byte. -/

/-- The value of a `php_driver_decimal`: the unscaled number and the scale, a C
`long`. -/
@[ext] structure Decimal where
  value : Int
  scale : BitVec 64
deriving DecidableEq

def ascii (text : String) : List UInt8 :=
  text.toList.map Char.toUInt8

def cString (bytes : List UInt8) : List UInt8 :=
  bytes.takeWhile (· ≠ 0)

theorem cString_append {left : List UInt8} (noTerminator : 0 ∉ left) (right : List UInt8) :
    cString (left ++ right) = left ++ cString right := by
  apply List.takeWhile_append_of_pos
  intro char member
  simp only [decide_eq_true_eq]
  rintro rfl
  exact noTerminator member

theorem zero_notMem_cString (bytes : List UInt8) : 0 ∉ cString bytes := by
  intro member
  simpa using List.mem_takeWhile_imp member

theorem cString_eq_self_iff (bytes : List UInt8) : cString bytes = bytes ↔ 0 ∉ bytes := by
  constructor
  · intro same
    rw [← same]
    exact zero_notMem_cString bytes
  · intro missing
    simpa [cString] using cString_append missing []

def charAt (input : List UInt8) (index : Nat) : UInt8 :=
  input.getD index 0

def slice (input : List UInt8) (first last : Nat) : List UInt8 :=
  (input.drop first).take (last - first)

def isXDigit (char : UInt8) : Bool :=
  DecimalText.isDigit char || (97 ≤ char.toNat && char.toNat ≤ 102) ||
    (65 ≤ char.toNat && char.toNat ≤ 70)

inductive DecimalError where
  | multipleDots
  | unrecognizedCharacter (char : UInt8) (position : Nat)
  | invalidInteger
  | noDigits
  | integerPart (out : List UInt8)
  | noExponent
  | malformedExponent
deriving DecidableEq

def DecimalError.message (input : List UInt8) : DecimalError → List UInt8
  | .multipleDots =>
      ascii "Multiple '.' (dots) in the number '" ++ cString input ++ ascii "'"
  | .unrecognizedCharacter char position =>
      ascii "Unrecognized character '" ++ [char] ++ ascii "' at position " ++
        DecimalText.ofNat position
  | .invalidInteger => ascii "Invalid integer value: '" ++ cString input ++ ascii "'"
  | .noDigits => ascii "No digits seen in value: '" ++ cString input ++ ascii "'"
  | .integerPart out =>
      ascii "Unable to extract integer part of decimal value: '" ++ cString input ++
        ascii "', " ++ out
  | .noExponent =>
      ascii "No exponent following e or E in value: '" ++ cString input ++ ascii "'"
  | .malformedExponent =>
      ascii "Malformed exponent in value: '" ++ cString input ++ ascii "'"

/-- How the parser ends: it has filled the caller's number and scale, it has
thrown with what it had filled by then, or its behaviour is undefined. -/
inductive Parsed where
  | ok (slot : Decimal)
  | exception (error : DecimalError) (slot : Decimal)
  | undefined
deriving DecidableEq

def Parsed.written : Parsed → Option Decimal
  | .ok slot => some slot
  | .exception _ slot => some slot
  | .undefined => none

variable (gmp : Gmp)

/-! The sign and the base of an integer text, and where its digits start. -/

def prepareStringConversion (input : List UInt8) : Nat × Nat × Bool :=
  let negative := charAt input 0 = '-'.toUInt8
  let point := if charAt input 0 = '+'.toUInt8 ∨ negative then 1 else 0
  if charAt input point = '0'.toUInt8 ∧ charAt input (point + 1) = 'b'.toUInt8 then
    (2, point + 2, negative)
  else (0, point, negative)

def parseVarint (input : List UInt8) : Option Int :=
  let (base, pos, negative) := prepareStringConversion input
  (gmp.mpzSetStr (cString (input.drop pos)) base).map fun number =>
    if negative then -number else number

def parseInteger (input : List UInt8) (slot : Decimal) : Parsed :=
  match parseVarint gmp input with
  | none => .exception .invalidInteger { slot with scale := 0 }
  | some value => .ok { value, scale := 0 }

/-- The loop over the significand: the position where it stops and the position
of the dot. -/
def scanSignificand : List UInt8 → Nat → Option Nat →
    Except DecimalError (Nat × Option Nat)
  | [], point, dot => .ok (point, dot)
  | char :: rest, point, dot =>
      if char = '.'.toUInt8 then
        match dot with
        | some _ => .error .multipleDots
        | none => scanSignificand rest (point + 1) (some point)
      else if char = 'e'.toUInt8 ∨ char = 'E'.toUInt8 then .ok (point, dot)
      else if isXDigit char then scanSignificand rest (point + 1) dot
      else .error (.unrecognizedCharacter char point)

inductive Scanned where
  | converted (number : Int)
  | matchingFailure
  | endOfInput
deriving DecidableEq

/-- `sscanf` with the format `"%d"`. -/
def sscanfInt (text : List UInt8) : Scanned :=
  match text.dropWhile isSpace with
  | [] => .endOfInput
  | char :: rest =>
      let signed : Bool := char = '+'.toUInt8 ∨ char = '-'.toUInt8
      let digits := (if signed then rest else char :: rest).takeWhile DecimalText.isDigit
      if digits = [] then .matchingFailure
      else if char = '-'.toUInt8 then .converted (-(DecimalText.toNat digits : Int))
      else .converted (DecimalText.toNat digits)

def parseExponent (input : List UInt8) (inLen : Int) (point : Nat) (slot : Decimal) :
    Parsed :=
  if (point : Int) < inLen then
    let point := point + 1
    let point := if charAt input point = '+'.toUInt8 then point + 1 else point
    if inLen ≤ point then .exception .noExponent slot
    else match sscanfInt (cString (input.drop point)) with
      | .matchingFailure => .exception .malformedExponent slot
      -- `EOF` is no zero, so the uninitialised `diff` is subtracted
      | .endOfInput => .undefined
      | .converted diff =>
          -- a number outside `int` leaves the conversion undefined
          if intMin ≤ diff ∧ diff ≤ intMax then
            .ok { slot with scale := slot.scale - BitVec.ofInt 64 diff }
          else .undefined
  else .ok slot

def parseSignificand (input : List UInt8) (inLen : Int) (start : Nat) (negative : Bool)
    (point : Nat) (dot : Option Nat) (slot : Decimal) : Parsed :=
  let sign := DecimalText.sign negative
  let (out, outLen, scale) := match dot with
    | some dot =>
        -- the second copy takes one character more than the fraction has
        (sign ++ slice input start dot ++ slice input (dot + 1) (point + 1),
          point - start + sign.length - 1, (point - 1 - dot : Int))
    | none => (sign ++ slice input start point, point - start + sign.length, 0)
  let slot := { slot with scale := BitVec.ofInt 64 scale }
  if outLen = 0 then .exception .noDigits slot
  else match gmp.mpzSetStr (cString out) 10 with
    | none => .exception (.integerPart (cString out)) slot
    | some value => parseExponent input inLen point { slot with value }

def parseDecimal (input : List UInt8) (inLen : Int) (slot : Decimal) : Parsed :=
  if inLen < 0 then .undefined -- the buffer is allocated with this size
  else
    let negative : Bool := charAt input 0 = '-'.toUInt8
    let start := if charAt input 0 = '+'.toUInt8 ∨ negative then 1 else 0
    let maybeOctal := charAt input start = '0'.toUInt8
    if maybeOctal ∧ (charAt input (start + 1) = 'b'.toUInt8 ∨
        charAt input (start + 1) = 'x'.toUInt8) then parseInteger gmp input slot
    else match scanSignificand ((input.take inLen.toNat).drop start) start none with
      | .error error => .exception error slot
      | .ok (point, dot) =>
          if maybeOctal ∧ dot = none then parseInteger gmp input slot
          -- the sign takes the only byte of the buffer, and no terminator is left
          else if negative ∧ inLen = 0 then .undefined
          else parseSignificand gmp input inLen start negative point dot slot

end PhpDriver
