import Mathlib.Algebra.Ring.CharZero
import Mathlib.Data.Int.Log
import Mathlib.Data.Rat.Floor
import Mathlib.Tactic.Linarith

namespace PhpDriver.Data

/-! Numbers cut to their leading bits, as in a binary floating-point format whose
exponent has no bound. -/

namespace Truncation

section

variable {K : Type*} [Field K] [LinearOrder K] [IsStrictOrderedRing K] [FloorRing K]

def unit (bits : Nat) (x : K) : K :=
  2 ^ (Int.log 2 |x| + 1 - bits)

def truncate (bits : Nat) (x : K) : K :=
  if x < 0 then -(⌊|x| / unit bits x⌋ * unit bits x) else ⌊|x| / unit bits x⌋ * unit bits x

def towardZero (x : K) : Int :=
  if x < 0 then -⌊|x|⌋ else ⌊|x|⌋

theorem unit_pos (bits : Nat) (x : K) : 0 < unit bits x :=
  zpow_pos two_pos _

omit [IsStrictOrderedRing K] in
theorem unit_neg (bits : Nat) (x : K) : unit bits (-x) = unit bits x := by
  rw [unit, abs_neg, unit]

theorem truncate_of_nonneg {bits : Nat} {x : K} (nonneg : 0 ≤ x) :
    truncate bits x = ⌊x / unit bits x⌋ * unit bits x := by
  rw [truncate, if_neg nonneg.not_gt, abs_of_nonneg nonneg]

theorem truncate_nonneg {bits : Nat} {x : K} (nonneg : 0 ≤ x) : 0 ≤ truncate bits x := by
  rw [truncate_of_nonneg nonneg]
  have floor : 0 ≤ ⌊x / unit bits x⌋ := Int.floor_nonneg.mpr (div_nonneg nonneg (unit_pos bits x).le)
  exact mul_nonneg (Int.cast_nonneg floor) (unit_pos bits x).le

@[simp] theorem truncate_zero (bits : Nat) : truncate bits (0 : K) = 0 := by
  rw [truncate_of_nonneg le_rfl, zero_div, Int.floor_zero, Int.cast_zero, zero_mul]

theorem truncate_neg (bits : Nat) (x : K) : truncate bits (-x) = -truncate bits x := by
  rcases lt_trichotomy x 0 with negative | rfl | positive
  · rw [truncate, truncate, if_pos negative, if_neg (by linarith), unit_neg, abs_neg, neg_neg]
  · simp
  · rw [truncate, truncate, if_pos (by linarith), if_neg (by linarith), unit_neg, abs_neg]

theorem abs_truncate (bits : Nat) (x : K) : |truncate bits x| = truncate bits |x| := by
  rcases le_total 0 x with nonneg | nonpos
  · rw [abs_of_nonneg nonneg, abs_of_nonneg (truncate_nonneg nonneg)]
  · rw [abs_of_nonpos nonpos, truncate_neg, abs_of_nonpos]
    have nonneg : 0 ≤ truncate bits (-x) := truncate_nonneg (by linarith)
    rw [truncate_neg] at nonneg
    linarith

/-! What is cut off is less than the last bit, which is small beside the number. -/

theorem truncate_le {bits : Nat} {x : K} (nonneg : 0 ≤ x) : truncate bits x ≤ x := by
  rw [truncate_of_nonneg nonneg, ← le_div_iff₀ (unit_pos bits x)]
  exact Int.floor_le _

theorem lt_truncate_add_unit {bits : Nat} {x : K} (nonneg : 0 ≤ x) :
    x < truncate bits x + unit bits x := by
  have above := Int.lt_floor_add_one (x / unit bits x)
  rw [div_lt_iff₀ (unit_pos bits x), add_mul, one_mul] at above
  rwa [truncate_of_nonneg nonneg]

theorem unit_mul_pow (bits : Nat) (x : K) : unit bits x * 2 ^ bits = 2 ^ (Int.log 2 |x| + 1) := by
  rw [unit, zpow_sub₀ two_ne_zero, zpow_natCast, div_mul_cancel₀]
  exact pow_ne_zero _ two_ne_zero

theorem log_le {x : K} (positive : 0 < x) : (2 : K) ^ Int.log 2 x ≤ x := by
  have bound := Int.zpow_log_le_self one_lt_two positive
  rwa [Nat.cast_ofNat] at bound

theorem unit_mul_le {bits : Nat} {x : K} (positive : 0 < x) :
    unit bits x * 2 ^ bits ≤ 2 * x := by
  rw [unit_mul_pow, abs_of_pos positive, zpow_add_one₀ two_ne_zero, mul_comm]
  exact mul_le_mul_of_nonneg_left (log_le positive) two_pos.le

/-! Numbers of so few bits are not changed, and they separate the others. -/

def Representable (bits : Nat) (y : K) : Prop :=
  ∃ (digits : Nat) (exponent : Int), digits < 2 ^ bits ∧ y = digits * 2 ^ exponent

omit [LinearOrder K] [IsStrictOrderedRing K] [FloorRing K] in
theorem representable_natCast {bits n : Nat} (positive : 0 < bits) (le : n ≤ 2 ^ bits) :
    Representable bits (n : K) := by
  rcases le.lt_or_eq with less | rfl
  · exact ⟨n, 0, less, by rw [zpow_zero, mul_one]⟩
  · refine ⟨1, bits, Nat.one_lt_two_pow positive.ne', ?_⟩
    push_cast
    rw [zpow_natCast, one_mul]

/-- A multiple of the last bit that is not above the number survives. -/
theorem multiple_le_truncate {bits : Nat} {x y : K} (nonneg : 0 ≤ x) {count : Int}
    (multiple : y = count * unit bits x) (le : y ≤ x) : y ≤ truncate bits x := by
  have below : (count : K) ≤ x / unit bits x := by
    rwa [le_div_iff₀ (unit_pos bits x), ← multiple]
  rw [truncate_of_nonneg nonneg, multiple]
  exact mul_le_mul_of_nonneg_right (Int.cast_le.mpr (Int.le_floor.mpr below)) (unit_pos bits x).le

omit [IsStrictOrderedRing K] in
theorem zpow_eq_mul_unit {bits : Nat} {x : K} {exponent : Int}
    (le : Int.log 2 |x| + 1 - bits ≤ exponent) :
    (2 : K) ^ exponent =
      (2 ^ (exponent - (Int.log 2 |x| + 1 - bits)).toNat : Nat) * unit bits x := by
  have shift : exponent = ((exponent - (Int.log 2 |x| + 1 - bits)).toNat : Int) +
      (Int.log 2 |x| + 1 - bits) := by omega
  rw [Nat.cast_pow, Nat.cast_ofNat, unit, ← zpow_natCast, ← zpow_add₀ two_ne_zero, ← shift]

theorem le_truncate_iff {bits : Nat} {x y : K} (nonneg : 0 ≤ x) (few : Representable bits y) :
    y ≤ truncate bits x ↔ y ≤ x := by
  refine ⟨fun le => le.trans (truncate_le nonneg), fun le => ?_⟩
  obtain ⟨digits, exponent, less, rfl⟩ := few
  rcases Nat.eq_zero_or_pos digits with rfl | some_
  · rw [Nat.cast_zero, zero_mul]
    exact truncate_nonneg nonneg
  have y_pos : (0 : K) < digits * 2 ^ exponent :=
    mul_pos (Nat.cast_pos.mpr some_) (zpow_pos two_pos _)
  have x_pos : 0 < x := y_pos.trans_le le
  have x_abs : |x| = x := abs_of_pos x_pos
  by_cases coarse : Int.log 2 |x| + 1 - bits ≤ exponent
  · apply @multiple_le_truncate _ _ _ _ _ _ _ _ nonneg
      (digits * 2 ^ (exponent - (Int.log 2 |x| + 1 - bits)).toNat : Nat) _ le
    rw [zpow_eq_mul_unit coarse, Int.cast_natCast, Nat.cast_mul, mul_assoc]
  · -- so small a number is below the leading bit
    have leading : Int.log 2 |x| + 1 - bits ≤ Int.log 2 |x| := by
      have bits_pos : bits ≠ 0 := by
        rintro rfl
        omega
      omega
    have lead : (2 : K) ^ Int.log 2 |x| ≤ x := by
      rw [x_abs]
      exact log_le x_pos
    have lead_le : (2 : K) ^ Int.log 2 |x| ≤ truncate bits x := by
      apply @multiple_le_truncate _ _ _ _ _ _ _ _ nonneg
        (2 ^ (Int.log 2 |x| - (Int.log 2 |x| + 1 - bits)).toNat : Nat) _ lead
      rw [Int.cast_natCast]
      exact zpow_eq_mul_unit leading
    refine le_trans ?_ lead_le
    calc (digits : K) * 2 ^ exponent
        ≤ 2 ^ (bits : Int) * 2 ^ exponent := by
          apply mul_le_mul_of_nonneg_right _ (zpow_pos two_pos _).le
          rw [zpow_natCast]
          exact_mod_cast less.le
      _ = 2 ^ ((bits : Int) + exponent) := (zpow_add₀ two_ne_zero _ _).symm
      _ ≤ 2 ^ Int.log 2 |x| := zpow_le_zpow_right₀ one_le_two (by omega)

theorem truncate_lt_iff {bits : Nat} {x y : K} (nonneg : 0 ≤ x) (few : Representable bits y) :
    truncate bits x < y ↔ x < y := by
  rw [← not_le, le_truncate_iff nonneg few, not_le]

theorem truncate_representable {bits : Nat} {x : K} (nonneg : 0 ≤ x)
    (few : Representable bits x) : truncate bits x = x :=
  le_antisymm (truncate_le nonneg) ((le_truncate_iff nonneg few).mpr le_rfl)

theorem floor_truncate_eq_iff {bits n : Nat} {x : K} (nonneg : 0 ≤ x) (positive : 0 < bits)
    (less : n < 2 ^ bits) : ⌊truncate bits x⌋ = n ↔ (n : K) ≤ x ∧ x < n + 1 := by
  have next : Representable bits ((n : K) + 1) := by
    have few := representable_natCast (K := K) positive less
    rwa [Nat.cast_succ] at few
  rw [Int.floor_eq_iff, Int.cast_natCast, truncate_lt_iff nonneg next,
    le_truncate_iff nonneg (representable_natCast positive less.le)]

/-- Above a number of fewer bits there is at least the last bit. -/
theorem natCast_lt_truncate_iff {bits n : Nat} {x : K} (nonneg : 0 ≤ x) (two : 1 < bits)
    (le : n ≤ 2 ^ (bits - 1)) : (n : K) < truncate bits x ↔ n + unit bits x ≤ x := by
  constructor
  · intro less
    have x_pos : 0 < x := (Nat.cast_nonneg n).trans_lt (less.trans_le (truncate_le nonneg))
    by_cases fits : Int.log 2 |x| + 1 - bits ≤ 0
    · -- both are multiples of the last bit
      have one := zpow_eq_mul_unit (x := x) fits
      rw [zpow_zero] at one
      rw [truncate_of_nonneg nonneg] at less
      have multiple : (n : K) = (n * 2 ^ (0 - (Int.log 2 |x| + 1 - bits)).toNat : Nat) *
          unit bits x := by
        rw [Nat.cast_mul, mul_assoc, ← one, mul_one]
      rw [multiple] at less ⊢
      generalize n * 2 ^ (0 - (Int.log 2 |x| + 1 - bits)).toNat = count at less
      have count_lt : (count : K) < ⌊x / unit bits x⌋ :=
        lt_of_mul_lt_mul_right less (unit_pos bits x).le
      have integers : (count : Int) < ⌊x / unit bits x⌋ := by exact_mod_cast count_lt
      have succ : (count : K) + 1 ≤ ⌊x / unit bits x⌋ := by
        exact_mod_cast Int.add_one_le_of_lt integers
      have product := mul_le_mul_of_nonneg_right succ (unit_pos bits x).le
      rw [add_mul, one_mul] at product
      exact product.trans ((truncate_of_nonneg nonneg).ge.trans (truncate_le nonneg))
    · -- the number is far above
      have large : (2 : K) ^ bits ≤ x := by
        rw [← zpow_natCast]
        refine le_trans (zpow_le_zpow_right₀ one_le_two ?_) (log_le x_pos)
        rw [abs_of_pos x_pos] at fits
        omega
      obtain ⟨rest, rfl⟩ : ∃ rest, bits = rest + 2 := ⟨bits - 2, by omega⟩
      have last : unit (rest + 2) x * 2 ^ (rest + 2) ≤ 2 * x := unit_mul_le x_pos
      have small : (n : K) ≤ 2 ^ (rest + 1) := by exact_mod_cast le
      have power : (1 : K) ≤ 2 ^ rest := one_le_pow₀ one_le_two
      rw [pow_add] at last large
      rw [pow_succ] at small
      have unit_le : unit (rest + 2) x * 2 ≤ x := by
        have unit_pos := unit_pos (rest + 2) x
        nlinarith
      linarith
  · intro sum
    have above : x < truncate bits x + unit bits x := lt_truncate_add_unit nonneg
    linarith

end

end Truncation

end PhpDriver.Data
