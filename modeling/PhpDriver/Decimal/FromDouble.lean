import Mathlib.Algebra.Ring.Int.Parity
import Mathlib.Tactic.FieldSimp
import PhpDriver.Data.IeeeScaled
import PhpDriver.Decimal.Arithmetic

namespace PhpDriver

open Data

/-! `from_double` of `Decimal.c` yields the number that the bits denote, at the least scale. -/

/-- The loop ends at an odd mantissa, or when no places are left. -/
theorem stripTrailingZeros_spec (mantissa places : Nat) :
    let stripped := stripTrailingZeros mantissa places
    stripped.2 ≤ places ∧ mantissa = stripped.1 * 2 ^ (places - stripped.2) ∧
      (0 < stripped.2 → stripped.1 % 2 = 1) := by
  induction places generalizing mantissa with
  | zero => simp [stripTrailingZeros]
  | succ places ih =>
      rw [stripTrailingZeros]
      split
      · rename_i even
        obtain ⟨le, product, odd⟩ := ih (mantissa / 2)
        refine ⟨by omega, ?_, odd⟩
        rw [Nat.succ_sub le, Nat.pow_succ, ← Nat.mul_assoc, ← product]
        omega
      · rename_i odd
        exact ⟨Nat.le_refl _, by simp, fun _ => by omega⟩

theorem toInt_ofNat_small {n : Nat} (small : n < 2 ^ 63) : (BitVec.ofNat 64 n).toInt = n := by
  rw [BitVec.toInt_ofNat']
  apply Int.bmod_eq_of_le <;> omega

theorem scaled_ten_five (mantissa : Int) (places : Nat) :
    scaled (10 : ℚ) (mantissa * 5 ^ places) places = mantissa / 2 ^ places := by
  have ten : (10 : ℚ) = 2 * 5 := by norm_num
  rw [scaled, zpow_neg, zpow_natCast, ten, mul_pow]
  push_cast
  field_simp

/-- An odd number of such fractions has no fewer decimal places. -/
theorem places_le_of_scaled {mantissa : Int} (odd : mantissa % 2 = 1) {places scale : Nat}
    {value : Int} (same : scaled (10 : ℚ) value scale = mantissa / 2 ^ places) :
    places ≤ scale := by
  by_contra fewer
  obtain ⟨rest, rfl⟩ : ∃ rest, places = scale + (rest + 1) := ⟨places - scale - 1, by omega⟩
  have ten : (10 : ℚ) = 2 * 5 := by norm_num
  have integers : value * 2 ^ (rest + 1) = mantissa * 5 ^ scale := by
    rw [scaled, zpow_neg, zpow_natCast, ten, mul_pow, pow_add 2 scale] at same
    field_simp at same
    rw [mul_comm mantissa]
    exact_mod_cast same
  have even : value * 2 ^ (rest + 1) % 2 = 0 := by
    rw [pow_succ, ← mul_assoc, Int.mul_emod_left]
  have five : (5 : Int) ^ scale % 2 = 1 := Int.odd_iff.mp (Odd.pow (by decide))
  have product : mantissa * 5 ^ scale % 2 = 1 := by
    rw [Int.mul_emod, odd, five]
    rfl
  rw [integers, product] at even
  cases even

def doubleMantissa (raw : BitVec 64) : Nat :=
  if raw.toNat / 2 ^ 52 % 2 ^ 11 = 0 then raw.toNat % 2 ^ 52
  else raw.toNat % 2 ^ 52 + 2 ^ 52

def doubleExponent (raw : BitVec 64) : Nat :=
  raw.toNat / 2 ^ 52 % 2 ^ 11 - 1

def signed (raw : BitVec 64) (mantissa : Nat) : Int :=
  if raw.toInt < 0 then -(mantissa : Int) else mantissa

theorem fromDouble_eq (raw : BitVec 64) :
    fromDouble raw =
      let stripped := stripTrailingZeros (doubleMantissa raw) (1074 - doubleExponent raw)
      if 0 < stripped.2 then
        { value := signed raw stripped.1 * 5 ^ stripped.2, scale := BitVec.ofNat 64 stripped.2 }
      else { value := signed raw stripped.1 * 2 ^ (doubleExponent raw - 1074), scale := 0 } := by
  have places : (-((if raw.toNat / 2 ^ 52 % 2 ^ 11 = 0 then -1022
      else ((raw.toNat / 2 ^ 52 % 2 ^ 11 : Nat) : Int) - 1023) - 52)).toNat =
      1074 - doubleExponent raw := by
    rw [doubleExponent]
    split <;> omega
  have power : ((if raw.toNat / 2 ^ 52 % 2 ^ 11 = 0 then -1022
      else ((raw.toNat / 2 ^ 52 % 2 ^ 11 : Nat) : Int) - 1023) - 52).toNat =
      doubleExponent raw - 1074 := by
    rw [doubleExponent]
    split <;> omega
  simp only [fromDouble, places, power]
  rfl

theorem units_eq (raw : BitVec 64) :
    Ieee.units 52 raw = doubleMantissa raw * 2 ^ doubleExponent raw := by
  have exponent : Ieee.magnitude raw / 2 ^ 52 = raw.toNat / 2 ^ 52 % 2 ^ 11 := by
    rw [Ieee.magnitude]
    omega
  have rest : Ieee.magnitude raw % 2 ^ 52 = raw.toNat % 2 ^ 52 := by
    rw [Ieee.magnitude]
    omega
  simp only [Ieee.units, doubleMantissa, doubleExponent, exponent, rest]
  split
  · rename_i denormal
    rw [denormal, Nat.zero_sub, Nat.pow_zero, Nat.mul_one]
  · rw [Nat.add_comm]

theorem toRat_eq (raw : BitVec 64) :
    Ieee.toRat 52 raw = signed raw (doubleMantissa raw) * 2 ^ doubleExponent raw / 2 ^ 1074 := by
  have exponent : 2 ^ (64 - 2 - 52) - 2 + 52 = 1074 := rfl
  have one : (Ieee.one 64 52 : ℚ) = 2 ^ 1074 := by
    rw [Ieee.one, exponent, Nat.cast_pow, Nat.cast_ofNat]
  have sign : raw.msb = decide (raw.toInt < 0) := by
    rw [BitVec.msb_eq_toInt]
  rw [Ieee.toRat, one, units_eq, sign, signed]
  split
  · rename_i negative
    rw [if_pos (by simpa using negative), Int.cast_neg, neg_mul]
    push_cast
    rfl
  · rename_i nonneg
    rw [if_neg (by simpa using nonneg)]
    push_cast
    rfl

theorem signed_mul (raw : BitVec 64) (mantissa factor : Nat) :
    signed raw (mantissa * factor) = signed raw mantissa * factor := by
  rw [signed, signed]
  split <;> push_cast <;> ring

theorem signed_odd {raw : BitVec 64} {mantissa : Nat} (odd : mantissa % 2 = 1) :
    signed raw mantissa % 2 = 1 := by
  rw [signed]
  split <;> omega

theorem powers_of_places {exponent bias places : Nat} (le : places ≤ bias - exponent) :
    (2 : ℚ) ^ (bias - exponent - places) * 2 ^ exponent * 2 ^ places =
      2 ^ (exponent - bias) * 2 ^ bias := by
  rw [← pow_add, ← pow_add, ← pow_add]
  congr 1
  omega

/-- The number and the scale are exact, and no smaller scale would do. -/
theorem fromDouble_exact (raw : BitVec 64) :
    0 ≤ (fromDouble raw).scale.toInt ∧ (fromDouble raw).toRat = Ieee.toRat 52 raw ∧
      ∀ (value : Int) (scale : Nat), scaled 10 value scale = Ieee.toRat 52 raw →
        (fromDouble raw).scale.toInt ≤ scale := by
  obtain ⟨le, product, odd⟩ :=
    stripTrailingZeros_spec (doubleMantissa raw) (1074 - doubleExponent raw)
  rw [fromDouble_eq]
  generalize stripTrailingZeros (doubleMantissa raw) (1074 - doubleExponent raw) = stripped
    at le product odd
  have number : Ieee.toRat 52 raw =
      signed raw stripped.1 * 2 ^ (doubleExponent raw - 1074) / 2 ^ stripped.2 := by
    rw [toRat_eq, product, signed_mul, div_eq_div_iff (by positivity) (by positivity)]
    push_cast
    rw [mul_assoc, mul_assoc, ← mul_assoc (2 ^ _), powers_of_places le, ← mul_assoc]
  dsimp only
  split
  · rename_i places
    have scale : (BitVec.ofNat 64 stripped.2).toInt = stripped.2 :=
      toInt_ofNat_small (by omega)
    have least : doubleExponent raw - 1074 = 0 := by omega
    rw [least, pow_zero, mul_one] at number
    refine ⟨by rw [scale]; omega, ?_, ?_⟩
    · rw [Decimal.toRat, scale, scaled_ten_five, number]
    · intro value other same
      rw [number] at same
      rw [scale]
      exact_mod_cast places_le_of_scaled (signed_odd (odd places)) same
  · rename_i none
    have zero : stripped.2 = 0 := by omega
    rw [zero, pow_zero, div_one] at number
    refine ⟨by simp, ?_, fun _ other _ => by simp⟩
    rw [Decimal.toRat, number, scaled]
    simp

end PhpDriver
