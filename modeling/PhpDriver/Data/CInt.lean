import Mathlib.Algebra.Order.Ring.Int

namespace PhpDriver.Data

/-! The C integer types of the 64-bit targets. `long` and the fixed-width types
are bit vectors; an `int` is an integer, with the narrowing conversion below. -/

def intMin : Int := -2147483648

def intMax : Int := 2147483647

def longMax : Int := 9223372036854775807

def wrapInt (n : Int) : Int :=
  n.bmod (2 ^ 32)

theorem wrapInt_of_range {n : Int} (low : intMin ≤ n) (high : n ≤ intMax) :
    wrapInt n = n := by
  simp only [wrapInt, intMin, intMax] at *
  rw [Int.bmod_eq_of_le] <;> omega

theorem wrapInt_bounds (n : Int) : intMin ≤ wrapInt n ∧ wrapInt n ≤ intMax := by
  have low := Int.le_bmod (x := n) (m := 2 ^ 32) (by decide)
  have high := Int.bmod_lt (x := n) (m := 2 ^ 32) (by decide)
  simp only [wrapInt, intMin, intMax]
  omega

theorem wrapInt_eq_self_iff {n : Int} : wrapInt n = n ↔ intMin ≤ n ∧ n ≤ intMax := by
  constructor
  · intro same
    rw [← same]
    exact wrapInt_bounds n
  · rintro ⟨low, high⟩
    exact wrapInt_of_range low high

theorem wrapInt_eq_sub (n : Int) : ∃ k : Int, wrapInt n = n - 2 ^ 32 * k :=
  ⟨n.bdiv (2 ^ 32), Int.bmod_eq_self_sub_mul_bdiv n (2 ^ 32)⟩

theorem wrapInt_le {n : Int} (low : intMin ≤ n) : wrapInt n ≤ n := by
  have bounds := wrapInt_bounds n
  obtain ⟨k, equation⟩ := wrapInt_eq_sub n
  simp only [intMin, intMax] at *
  omega

/-- Above the range of `int` the conversion loses at least one modulus. -/
theorem wrapInt_le_sub {n : Int} (high : intMax < n) : wrapInt n ≤ n - 2 ^ 32 := by
  have bounds := wrapInt_bounds n
  obtain ⟨k, equation⟩ := wrapInt_eq_sub n
  simp only [intMin, intMax] at *
  omega

theorem long_bounds (x : BitVec 64) : -longMax - 1 ≤ x.toInt ∧ x.toInt ≤ longMax := by
  have low := BitVec.le_toInt x
  have high := BitVec.toInt_lt (x := x)
  simp only [longMax]
  omega

theorem toNat_of_nonneg {w : Nat} {x : BitVec w} (nonneg : 0 ≤ x.toInt) :
    (x.toNat : Int) = x.toInt := by
  rw [BitVec.toInt_eq_toNat_cond] at nonneg ⊢
  split at nonneg
  · rw [if_pos ‹_›]
  · have bound := x.isLt
    omega

end PhpDriver.Data
