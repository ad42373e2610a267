import Mathlib.Algebra.Order.Ring.Int
import Mathlib.Tactic.Positivity

namespace PhpDriver.Data

/-! Integers that a signed type of some width can hold, and their conversion to it. -/

def Fits (width : Nat) (n : Int) : Prop :=
  -2 ^ (width - 1) ≤ n ∧ n < 2 ^ (width - 1)

instance (width : Nat) (n : Int) : Decidable (Fits width n) :=
  inferInstanceAs (Decidable (_ ∧ _))

section

variable {width : Nat}

theorem fits_toInt (bits : BitVec width) : Fits width bits.toInt :=
  ⟨BitVec.le_toInt bits, BitVec.toInt_lt⟩

theorem Fits.mono {wider : Nat} (le : width ≤ wider) {n : Int} (fits : Fits width n) :
    Fits wider n := by
  have bound : (2 : Int) ^ (width - 1) ≤ 2 ^ (wider - 1) :=
    pow_le_pow_right₀ (by decide) (by omega)
  obtain ⟨low, high⟩ := fits
  constructor <;> omega

theorem two_pow_pred (positive : 0 < width) : (2 : Int) ^ width = 2 * 2 ^ (width - 1) := by
  rw [← pow_succ']
  congr
  omega

theorem toInt_ofInt_iff (positive : 0 < width) {n : Int} :
    (BitVec.ofInt width n).toInt = n ↔ Fits width n := by
  constructor
  · intro same
    rw [← same]
    exact fits_toInt _
  · rintro ⟨low, high⟩
    have whole := two_pow_pred positive
    rw [BitVec.toInt_ofInt]
    apply Int.bmod_eq_of_le <;> push_cast <;> omega

theorem toInt_ofInt_eq_sub (width : Nat) (n : Int) :
    ∃ k : Int, (BitVec.ofInt width n).toInt = n - 2 ^ width * k := by
  refine ⟨n.bdiv (2 ^ width), ?_⟩
  rw [BitVec.toInt_ofInt, Int.bmod_eq_self_sub_mul_bdiv]
  push_cast
  rfl

theorem eq_intMin_iff (positive : 0 < width) {bits : BitVec width} :
    bits = BitVec.intMin width ↔ bits.toInt = -2 ^ (width - 1) := by
  rw [← BitVec.toInt_intMin_of_pos positive, BitVec.toInt_inj]

theorem toInt_intMin_neg (positive : 0 < width) : (BitVec.intMin width).toInt < 0 := by
  rw [BitVec.toInt_intMin_of_pos positive]
  exact neg_neg_of_pos (by positivity)

theorem fits_neg_iff (positive : 0 < width) {bits : BitVec width} :
    Fits width (-bits.toInt) ↔ bits ≠ BitVec.intMin width := by
  have bounds := fits_toInt bits
  rw [ne_eq, eq_intMin_iff positive]
  simp only [Fits] at bounds ⊢
  omega

theorem natAbs_toInt (bits : BitVec width) :
    (bits.toInt.natAbs : Int) = if bits.toInt < 0 then -bits.toInt else bits.toInt := by
  split <;> omega

end

/-- The one quotient that does not fit is that of the least number by minus one. -/
theorem fits_tdiv_iff {width : Nat} {n divisor : Int} (fits : Fits width n)
    (nonzero : divisor ≠ 0) :
    Fits width (n.tdiv divisor) ↔ ¬ (n = -2 ^ (width - 1) ∧ divisor = -1) := by
  obtain ⟨low, high⟩ := fits
  have positive : (0 : Int) < 2 ^ (width - 1) := by positivity
  constructor
  · rintro ⟨_, above⟩ ⟨rfl, rfl⟩
    rw [Int.tdiv_neg, Int.tdiv_one] at above
    omega
  · intro other
    by_cases small : divisor.natAbs = 1
    · rcases Int.natAbs_eq_iff.mp small with rfl | rfl
      · rw [Nat.cast_one, Int.tdiv_one]
        exact ⟨low, high⟩
      · rw [Nat.cast_one, Int.tdiv_neg, Int.tdiv_one]
        constructor <;> omega
    · have half : (n.tdiv divisor).natAbs ≤ n.natAbs / 2 := by
        rw [Int.natAbs_tdiv]
        exact Nat.div_le_div_left (by omega) (by decide)
      constructor <;> omega

theorem fits_tmod {width : Nat} {n : Int} (fits : Fits width n) (divisor : Int) :
    Fits width (n.tmod divisor) := by
  obtain ⟨low, high⟩ := fits
  have bound : (n.tmod divisor).natAbs ≤ n.natAbs := by
    rw [Int.natAbs_tmod]
    exact Nat.mod_le _ _
  have positive : (0 : Int) < 2 ^ (width - 1) := by positivity
  rcases Int.le_total 0 n with nonneg | nonpos
  · have sign := Int.tmod_nonneg divisor nonneg
    constructor <;> omega
  · have sign := Int.tmod_nonneg divisor (Int.neg_nonneg_of_nonpos nonpos)
    rw [Int.neg_tmod] at sign
    constructor <;> omega

/-- A product whose conversion lost something is not found again by a division. -/
theorem tdiv_ofInt_mul_iff {width : Nat} (positive : 0 < width) {n factor : Int}
    (fits : Fits width factor) (nonzero : factor ≠ 0) :
    (BitVec.ofInt width (n * factor)).toInt.tdiv factor = n ↔ Fits width (n * factor) := by
  constructor
  · intro back
    obtain ⟨k, lost⟩ := toInt_ofInt_eq_sub width (n * factor)
    have divided := Int.mul_tdiv_add_tmod (BitVec.ofInt width (n * factor)).toInt factor
    rw [back, Int.mul_comm] at divided
    have rest : ((BitVec.ofInt width (n * factor)).toInt.tmod factor).natAbs < factor.natAbs := by
      rw [Int.natAbs_tmod]
      exact Nat.mod_lt _ (by omega)
    have whole := two_pow_pred positive
    obtain ⟨low, high⟩ := fits
    have none : k = 0 := by
      by_contra some
      have large : (2 : Int) ^ width ≤ (2 ^ width * k).natAbs := by
        rw [Int.natAbs_mul, Int.natAbs_pow]
        push_cast
        have one : (1 : Int) ≤ |k| := Int.one_le_abs some
        exact le_mul_of_one_le_right (by positivity) one
      omega
    rw [none, Int.mul_zero, Int.sub_zero] at lost
    exact (toInt_ofInt_iff positive).mp lost
  · intro kept
    rw [(toInt_ofInt_iff positive).mpr kept, Int.mul_tdiv_cancel _ nonzero]

end PhpDriver.Data
