import Mathlib.Algebra.Field.Basic
import Mathlib.Algebra.GroupWithZero.Basic
import Mathlib.Data.Int.Cast.Basic
import Mathlib.Tactic.Ring

namespace PhpDriver.Data

/-! Integers with a scale: `value` at `scale` stands for `value * base ^ (-scale)`. -/

section

variable {K : Type*} [Field K] {base : K}

def scaled (base : K) (value scale : ℤ) : K :=
  value * base ^ (-scale)

theorem scaled_align (nonzero : base ≠ 0) (intBase : ℤ) (cast : (intBase : K) = base)
    (value scale : ℤ) (shift : ℕ) :
    scaled base (value * intBase ^ shift) (scale + shift) = scaled base value scale := by
  have cancel : base ^ shift * base ^ (-(scale + shift)) = base ^ (-scale) := by
    rw [← zpow_natCast, ← zpow_add₀ nonzero]
    congr 1
    ring
  simp only [scaled, Int.cast_mul, Int.cast_pow, cast]
  rw [mul_assoc, cancel]

theorem scaled_add (left right scale : ℤ) :
    scaled base (left + right) scale = scaled base left scale + scaled base right scale := by
  simp only [scaled, Int.cast_add, add_mul]

theorem scaled_sub (left right scale : ℤ) :
    scaled base (left - right) scale = scaled base left scale - scaled base right scale := by
  simp only [scaled, Int.cast_sub, sub_mul]

theorem scaled_mul (nonzero : base ≠ 0) (left right leftScale rightScale : ℤ) :
    scaled base (left * right) (leftScale + rightScale) =
      scaled base left leftScale * scaled base right rightScale := by
  simp only [scaled, Int.cast_mul, neg_add, zpow_add₀ nonzero]
  ring

end

end PhpDriver.Data
