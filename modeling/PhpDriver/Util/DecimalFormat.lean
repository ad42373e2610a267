import Mathlib.Data.Nat.Log
import PhpDriver.Util.DecimalParse

namespace PhpDriver

open Data

/-! `php_driver_format_decimal` of `util/math.c`. The text is the first `total`
bytes of the buffer. -/

inductive FormatFault where
  /-- `assert(scale >= 0)` fails. -/
  | assertion
  /-- `memmove` is called with a negative length. -/
  | negativeLength
  /-- An `int` computation overflows. -/
  | overflow
deriving DecidableEq

variable (gmp : Gmp)

def formatInteger (number : Int) : List UInt8 :=
  gmp.mpzGetStr number

/-- The text written by `sprintf` with the format `"E%+d"`. -/
def sprintfExponent (exponent : Int) : List UInt8 :=
  'E'.toUInt8 :: (if exponent < 0 then '-'.toUInt8 else '+'.toUInt8) ::
    DecimalText.ofNat exponent.natAbs

def formatFraction (tmp : List UInt8) (negative : Nat) (point : Int) : List UInt8 :=
  tmp.take negative ++ '0'.toUInt8 :: '.'.toUInt8 ::
    (List.replicate (-point).toNat '0'.toUInt8 ++ tmp.drop negative)

def formatPlain (tmp : List UInt8) (negative : Nat) (point : Int) :
    Except FormatFault (List UInt8) :=
  let len := tmp.length - negative
  let total := len + negative + 1
  let point := point + negative
  if intMax < point then .error .overflow
  else if (total : Int) < point then .error .negativeLength
  else
    let text := tmp ++ [0]
    .ok ((text.take point.toNat ++ '.'.toUInt8 :: text.drop point.toNat).take total)

def formatScientific (tmp : List UInt8) (negative : Nat) (point : Int) :
    Except FormatFault (List UInt8) :=
  let len := tmp.length - negative
  let exponent := point - 1
  if intMax < exponent.natAbs + 2 then .error .overflow
  else
    -- `ceil(log10(n))` of an `int` is the exact logarithm, rounded up
    let exponentSize := Nat.clog 10 (exponent.natAbs + 2) + 1
    if len = 1 then
      let total := 1 + negative + 1 + exponentSize
      .ok ((tmp ++ sprintfExponent exponent ++ [0]).take total)
    else
      let point := negative + 1
      let total := point + len + 1 + exponentSize
      .ok ((tmp.take point ++ '.'.toUInt8 :: tmp.drop point ++
        sprintfExponent exponent ++ [0]).take total)

def formatDecimal (number : Int) (scale : BitVec 64) :
    Except FormatFault (List UInt8) :=
  if scale = 0 then .ok (formatInteger gmp number)
  else
    let negative := if number.sign < 0 then 1 else 0
    let tmp := gmp.mpzGetStr number
    let len := tmp.length - negative
    let point := wrapInt (len - scale.toInt)
    if scale.toInt < 0 then .error .assertion
    else if point = intMin then .error .overflow
    else if -6 ≤ point - 1 then
      if point ≤ 0 then .ok (formatFraction tmp negative point)
      else formatPlain tmp negative point
    else formatScientific tmp negative point

end PhpDriver
