import PhpDriver.Data.CInt
import PhpDriver.Util.DecimalParse
import PhpDriver.Util.TwosComplement

namespace PhpDriver

open Data

/-! The `Decimal` objects of a program (`Decimal.c`) and everything that writes
their number and scale. An object is its index; `none` stands for undefined
behaviour. -/

abbrev DecimalHeap :=
  List Decimal

/-- The loop that removes trailing zero bits, on the mantissa and the negated
exponent. -/
def stripTrailingZeros : Nat → Nat → Nat × Nat
  | mantissa, 0 => (mantissa, 0)
  | mantissa, places + 1 =>
      if mantissa % 2 = 0 then stripTrailingZeros (mantissa / 2) places
      else (mantissa, places + 1)

def fromDouble (raw : BitVec 64) : Decimal :=
  let mantissa : Nat := raw.toNat % 2 ^ 52
  let biased : Nat := raw.toNat / 2 ^ 52 % 2 ^ 11
  let exponent : Int := (if biased = 0 then -1022 else (biased : Int) - 1023) - 52
  let mantissa := if biased = 0 then mantissa else mantissa + 2 ^ 52
  let (mantissa, places) := stripTrailingZeros mantissa (-exponent).toNat
  let signed : Int := if raw.toInt < 0 then -(mantissa : Int) else mantissa
  if 0 < places then
    { value := signed * 5 ^ places, scale := BitVec.ofNat 64 places }
  else { value := signed * 2 ^ exponent.toNat, scale := 0 }

def isNanOrInf (raw : BitVec 64) : Bool :=
  raw.toNat / 2 ^ 52 % 2 ^ 11 = 2 ^ 11 - 1

/-! Construction. The object exists, with zero and scale zero, before its
constructor runs, and it keeps what a throwing constructor has written. -/

inductive DecimalInput where
  | long (number : BitVec 64)
  | double (raw : BitVec 64)
  | string (text : List UInt8)
  | decimal (source : Nat)
  | other
deriving DecidableEq

def decimalNew (heap : DecimalHeap) : DecimalHeap :=
  heap ++ [{ value := 0, scale := 0 }]

variable (gmp : Gmp)

def decimalInit (heap : DecimalHeap) (self : Nat) (input : DecimalInput) :
    Option DecimalHeap := do
  let slot ← heap[self]?
  match input with
  | .long number => some (heap.set self { value := number.toInt, scale := 0 })
  | .double raw => some (if isNanOrInf raw then heap else heap.set self (fromDouble raw))
  | .string text => do
      let written ← (parseDecimal gmp text (wrapInt text.length) slot).written
      some (heap.set self written)
  | .decimal source => do
      let decimal ← heap[source]?
      some (heap.set self decimal)
  | .other => some heap

/-- The decimal of `php_driver_value`: the number from its bytes, the scale from the
32-bit scale beside them. -/
def decodeDecimal (heap : DecimalHeap) (data : List UInt8) (scale : BitVec 32) :
    Option DecimalHeap := do
  let value ← importTwosComplement gmp data
  some (heap ++ [{ value, scale := scale.signExtend 64 }])

def powScales (larger smaller : BitVec 64) : Option Int :=
  if BitVec.ssubOverflow larger smaller then none
  else some (10 ^ (larger - smaller).toNat)

/-- The operand with the smaller scale is multiplied in place; its scale stays. -/
def alignDecimals (heap : DecimalHeap) (lhs rhs : Nat) : Option DecimalHeap := do
  let left ← heap[lhs]?
  let right ← heap[rhs]?
  if left.scale.slt right.scale then
    let pow ← powScales right.scale left.scale
    some (heap.set lhs { left with value := left.value * pow })
  else if right.scale.slt left.scale then
    let pow ← powScales left.scale right.scale
    some (heap.set rhs { right with value := right.value * pow })
  else some heap

def alignedResult (combine : Int → Int → Int) (heap : DecimalHeap) (self num : Nat) :
    Option DecimalHeap := do
  let heap ← alignDecimals heap self num
  let left ← heap[self]?
  let right ← heap[num]?
  let scale := if right.scale.slt left.scale then left.scale else right.scale
  some (heap ++ [{ value := combine left.value right.value, scale }])

def decimalAdd : DecimalHeap → Nat → Nat → Option DecimalHeap :=
  alignedResult (· + ·)

def decimalSub : DecimalHeap → Nat → Nat → Option DecimalHeap :=
  alignedResult (· - ·)

def decimalMul (heap : DecimalHeap) (self num : Nat) : Option DecimalHeap := do
  let left ← heap[self]?
  let right ← heap[num]?
  if BitVec.saddOverflow left.scale right.scale then none
  else some (heap ++
    [{ value := left.value * right.value, scale := left.scale + right.scale }])

def decimalAbs (heap : DecimalHeap) (self : Nat) : Option DecimalHeap := do
  let decimal ← heap[self]?
  some (heap ++ [{ decimal with value := decimal.value.natAbs }])

def decimalNeg (heap : DecimalHeap) (self : Nat) : Option DecimalHeap := do
  let decimal ← heap[self]?
  some (heap ++ [{ decimal with value := -decimal.value }])

end PhpDriver
