import Mathlib.Algebra.Group.Nat.Defs

namespace PhpDriver.Data.Ieee

/-! Floating-point numbers of a binary interchange format, given by their bits, the
lowest `fraction` of which are the fraction. -/

section

variable {width : Nat} (fraction : Nat)

def magnitude (bits : BitVec width) : Nat :=
  bits.toNat % 2 ^ (width - 1)

def isNan (bits : BitVec width) : Bool :=
  decide (2 ^ (width - 1) - 2 ^ fraction < magnitude bits)

def order (bits : BitVec width) : Int :=
  if bits.msb then -(magnitude bits : Int) else magnitude bits

/-- A NaN is not less than anything, and the two zeros are equal. -/
def less (first second : BitVec width) : Bool :=
  !isNan fraction first && !isNan fraction second && decide (order first < order second)

def canonical (nan bits : BitVec width) : BitVec width :=
  if isNan fraction bits then nan else bits

theorem less_eq_false {nan first second : BitVec width}
    (same : canonical fraction nan first = canonical fraction nan second) :
    less fraction first second = false := by
  cases firstNan : isNan fraction first with
  | true => simp [less, firstNan]
  | false =>
      cases secondNan : isNan fraction second with
      | true => simp [less, secondNan]
      | false =>
          have equal : first = second := by simpa [canonical, firstNan, secondNan] using same
          simp [less, equal]

/-- The place of a number among all numbers: the NaNs come last, and the negative zero
before the positive one. -/
def rank (nan bits : BitVec width) : Int :=
  if isNan fraction bits then nan.toInt
  else if bits.msb then -(magnitude bits : Int) - 1
  else magnitude bits

end

theorem toInt_eq_magnitude {width : Nat} (bits : BitVec (width + 1)) :
    bits.toInt =
      if bits.msb then (magnitude bits : Int) - (2 ^ width : Nat) else magnitude bits := by
  have below := bits.isLt
  rw [Nat.pow_succ] at below
  rw [BitVec.toInt_eq_msb_cond, BitVec.msb_eq_decide, magnitude, Nat.add_sub_cancel, Nat.pow_succ]
  simp only [decide_eq_true_iff]
  split
  · rename_i negative
    rw [Nat.mod_eq_sub_mod negative, Nat.mod_eq_of_lt (by omega)]
    omega
  · rename_i positive
    rw [Nat.mod_eq_of_lt (by omega)]

theorem magnitude_lt {width : Nat} (bits : BitVec (width + 1)) : magnitude bits < 2 ^ width :=
  Nat.mod_lt _ (Nat.two_pow_pos width)

theorem rank_eq_iff {width : Nat} (fraction : Nat) {nan : BitVec (width + 1)}
    (undefined : isNan fraction nan = true) (positive : nan.msb = false)
    {first second : BitVec (width + 1)} :
    rank fraction nan first = rank fraction nan second ↔
      canonical fraction nan first = canonical fraction nan second := by
  have nanValue := toInt_eq_magnitude nan
  have firstValue := toInt_eq_magnitude first
  have secondValue := toInt_eq_magnitude second
  have firstBound := magnitude_lt first
  have secondBound := magnitude_lt second
  rw [positive, if_neg (by decide)] at nanValue
  simp only [isNan, Nat.add_sub_cancel, decide_eq_true_iff] at undefined
  have bits : first.toInt = second.toInt ↔ first = second := BitVec.toInt_inj
  grind [canonical, rank, isNan]

end PhpDriver.Data.Ieee
