import Mathlib.Data.Rat.Cast.Defs
import PhpDriver.Data.Ieee

namespace PhpDriver.Data.Ieee

/-! Floating-point numbers in units of the least positive one, and their products with a small
natural number. -/

section

variable {width : Nat} (fraction : Nat)

def isFinite (bits : BitVec width) : Bool :=
  decide (magnitude bits < 2 ^ (width - 1) - 2 ^ fraction)

def units (bits : BitVec width) : Nat :=
  let exponent := magnitude bits / 2 ^ fraction
  let rest := magnitude bits % 2 ^ fraction
  if exponent = 0 then rest else (2 ^ fraction + rest) * 2 ^ (exponent - 1)

def one (width fraction : Nat) : Nat :=
  2 ^ (2 ^ (width - 2 - fraction) - 2 + fraction)

def toRat (bits : BitVec width) : ℚ :=
  (if bits.msb then -(units fraction bits : ℚ) else units fraction bits) /
    (one width fraction : ℚ)

def roundEven (precision number : Nat) : Nat :=
  if number < 2 ^ precision then number
  else
    let step := 2 ^ (number.log2 + 1 - precision)
    let below := number / step
    let rest := number % step
    if 2 * rest < step ∨ 2 * rest = step ∧ below % 2 = 0 then below * step
    else (below + 1) * step

/-- The least integer that is not below the rounded product. A product that overflows is an
infinity, and not below any of the integers that matter. -/
def ceilScaled (scale : Nat) (bits : BitVec width) : Option Int :=
  if isFinite fraction bits then
    let scaled := roundEven (fraction + 1) (units fraction bits * scale)
    let one := one width fraction
    some (if bits.msb then -(scaled / one : Nat) else ((scaled + one - 1) / one : Nat))
  else none

/-- A thousandth times a thousand is one, and one and a half is rounded up. -/
example : ceilScaled 52 1000 (0x3F50624DD2F1A9FC#64) = some 1 ∧
    ceilScaled 52 1 (0x3FF8000000000000#64) = some 2 ∧
    ceilScaled 52 1000 (0xBFF8000000000000#64) = some (-1500) := by
  decide +kernel

end

end PhpDriver.Data.Ieee
