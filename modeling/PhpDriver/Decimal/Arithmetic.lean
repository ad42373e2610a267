import PhpDriver.Data.Scaled
import PhpDriver.Decimal.Object

namespace PhpDriver

open Data

/-! What the arithmetic methods return and what they leave of their operands. -/

def Decimal.toRat (decimal : Decimal) : ℚ :=
  scaled 10 decimal.value decimal.scale.toInt

def Aligned (left right : Decimal) : Prop :=
  left.scale = right.scale ∨
    (left.scale.toInt < right.scale.toInt ∧ left.value = 0) ∨
    (right.scale.toInt < left.scale.toInt ∧ right.value = 0)

/-- The operation returns a new decimal of the exact value, and both operands
are what they were. -/
def ExactAndFrames (operation : DecimalHeap → Nat → Nat → Option DecimalHeap)
    (exact_ : ℚ → ℚ → ℚ) (heap : DecimalHeap) (self num : Nat)
    (left right : Decimal) : Prop :=
  ∃ after result, operation heap self num = some (after ++ [result]) ∧
    after.length = heap.length ∧ result.toRat = exact_ left.toRat right.toRat ∧
    after[self]? = some left ∧ after[num]? = some right

section

variable {heap : DecimalHeap} {self num : Nat} {left right : Decimal}

theorem powScales_of_lt {smaller larger : BitVec 64} (nonneg : 0 ≤ smaller.toInt)
    (less : smaller.toInt < larger.toInt) :
    powScales larger smaller = some (10 ^ (larger.toInt - smaller.toInt).toNat) := by
  have bound := long_bounds larger
  simp only [longMax] at bound
  have fits : BitVec.ssubOverflow larger smaller = false := by
    simp only [BitVec.ssubOverflow, Bool.or_eq_false_iff, decide_eq_false_iff_not]
    omega
  have value : (larger - smaller).toInt = larger.toInt - smaller.toInt :=
    BitVec.toInt_sub_of_not_ssubOverflow (by simp [fits])
  have difference : (larger - smaller).toNat = (larger.toInt - smaller.toInt).toNat := by
    have cast := toNat_of_nonneg (x := larger - smaller) (by omega)
    omega
  rw [powScales, fits, difference]
  rfl

theorem alignDecimals_of_eq (leftAt : heap[self]? = some left) (rightAt : heap[num]? = some right)
    (same : left.scale = right.scale) : alignDecimals heap self num = some heap := by
  have irrefl : right.scale.slt right.scale = false := by simp [BitVec.slt]
  simp [alignDecimals, leftAt, rightAt, same, irrefl]

theorem alignDecimals_of_lt (leftAt : heap[self]? = some left) (rightAt : heap[num]? = some right)
    (nonneg : 0 ≤ left.scale.toInt) (less : left.scale.toInt < right.scale.toInt) :
    alignDecimals heap self num = some (heap.set self
      { left with value := left.value * 10 ^ (right.scale.toInt - left.scale.toInt).toNat }) := by
  have slt : left.scale.slt right.scale = true := by simp [BitVec.slt, less]
  simp [alignDecimals, leftAt, rightAt, slt, powScales_of_lt nonneg less]

theorem alignDecimals_of_gt (leftAt : heap[self]? = some left) (rightAt : heap[num]? = some right)
    (nonneg : 0 ≤ right.scale.toInt) (greater : right.scale.toInt < left.scale.toInt) :
    alignDecimals heap self num = some (heap.set num
      { right with
        value := right.value * 10 ^ (left.scale.toInt - right.scale.toInt).toNat }) := by
  have slt : right.scale.slt left.scale = true := by simp [BitVec.slt, greater]
  have notSlt : left.scale.slt right.scale = false := by simp [BitVec.slt, greater.le]
  simp [alignDecimals, leftAt, rightAt, slt, notSlt, powScales_of_lt nonneg greater]

/-- A number multiplied in place keeps its value only when it is zero. -/
private theorem mul_pow_eq_self_iff {value : Int} {shift : Nat} (positive : 0 < shift) :
    value * 10 ^ shift = value ↔ value = 0 := by
  constructor
  · intro same
    by_contra nonzero
    have one : (10 : Int) ^ shift = 1 := by
      have := Int.eq_of_mul_eq_mul_left nonzero (same.trans (Int.mul_one value).symm)
      exact this
    have large : (1 : Int) < 10 ^ shift := one_lt_pow₀ (by decide) (by omega)
    omega
  · rintro rfl
    exact Int.zero_mul _

theorem toRat_shift (decimal : Decimal) {scale : Int} (le : decimal.scale.toInt ≤ scale) :
    scaled (10 : ℚ) (decimal.value * 10 ^ (scale - decimal.scale.toInt).toNat) scale =
      decimal.toRat := by
  have nonzero : (10 : ℚ) ≠ 0 := by norm_num
  have aligned := scaled_align nonzero 10 (by norm_num) decimal.value decimal.scale.toInt (scale - decimal.scale.toInt).toNat
  have sum : decimal.scale.toInt + ((scale - decimal.scale.toInt).toNat : Int) = scale := by
    omega
  rw [sum] at aligned
  exact aligned

/-- With the result of the call at hand, only the operands are left to compare. -/
private theorem exactAndFrames_iff {operation : DecimalHeap → Nat → Nat → Option DecimalHeap}
    {exact_ : ℚ → ℚ → ℚ} {after : DecimalHeap} {result : Decimal}
    (run : operation heap self num = some (after ++ [result]))
    (length : after.length = heap.length)
    (value : result.toRat = exact_ left.toRat right.toRat) :
    ExactAndFrames operation exact_ heap self num left right ↔
      after[self]? = some left ∧ after[num]? = some right := by
  constructor
  · rintro ⟨other, otherResult, otherRun, _, _, frames⟩
    obtain ⟨rfl, _⟩ := List.append_inj (Option.some.inj (run.symm.trans otherRun))
      (by rw [length]; omega)
    exact frames
  · exact fun frames => ⟨after, result, run, length, value, frames⟩

private theorem with_scaled_value_iff {decimal : Decimal} {shift : Nat}
    (positive : 0 < shift) :
    { decimal with value := decimal.value * 10 ^ shift } = decimal ↔ decimal.value = 0 := by
  rw [Decimal.ext_iff, ← mul_pow_eq_self_iff positive]
  exact and_iff_left rfl

theorem alignedResult_iff {combine : Int → Int → Int} {exact_ : ℚ → ℚ → ℚ}
    (distributes : ∀ l r s : Int,
      scaled (10 : ℚ) (combine l r) s = exact_ (scaled 10 l s) (scaled 10 r s))
    (leftAt : heap[self]? = some left) (rightAt : heap[num]? = some right)
    (leftNonneg : 0 ≤ left.scale.toInt) (rightNonneg : 0 ≤ right.scale.toInt) :
    ExactAndFrames (alignedResult combine) exact_ heap self num left right ↔
      Aligned left right := by
  have selfIn : self < heap.length := (List.getElem?_eq_some_iff.mp leftAt).1
  have numIn : num < heap.length := (List.getElem?_eq_some_iff.mp rightAt).1
  have distinct (other : left.scale.toInt ≠ right.scale.toInt) : self ≠ num := by
    rintro rfl
    obtain rfl := Option.some.inj (leftAt.symm.trans rightAt)
    exact other rfl
  rcases Int.lt_trichotomy left.scale.toInt right.scale.toInt with less | same | greater
  · have apart := distinct less.ne
    have slt : right.scale.slt left.scale = false := by simp [BitVec.slt, less.le]
    let shift := (right.scale.toInt - left.scale.toInt).toNat
    have run : alignedResult combine heap self num = some
        (heap.set self { left with value := left.value * 10 ^ shift } ++
          [{ value := combine (left.value * 10 ^ shift) right.value,
             scale := right.scale }]) := by
      simp [alignedResult, alignDecimals_of_lt leftAt rightAt leftNonneg less, selfIn,
        List.getElem?_set_ne apart, rightAt, slt, shift]
    have value : scaled (10 : ℚ) (combine (left.value * 10 ^ shift) right.value)
        right.scale.toInt = exact_ left.toRat right.toRat := by
      rw [distributes, toRat_shift left less.le, Decimal.toRat, Decimal.toRat]
    rw [exactAndFrames_iff run List.length_set value, List.getElem?_set_self selfIn,
      List.getElem?_set_ne apart, Option.some.injEq, with_scaled_value_iff (by omega)]
    have other : left.scale ≠ right.scale := fun equal => less.ne (by rw [equal])
    simp [Aligned, rightAt, less, less.not_gt, other]
  · have equal : left.scale = right.scale := BitVec.eq_of_toInt_eq same
    have slt : right.scale.slt left.scale = false := by simp [BitVec.slt, same]
    have run : alignedResult combine heap self num = some
        (heap ++ [{ value := combine left.value right.value, scale := right.scale }]) := by
      simp [alignedResult, alignDecimals_of_eq leftAt rightAt equal, leftAt, rightAt, slt]
    have value : scaled (10 : ℚ) (combine left.value right.value) right.scale.toInt =
        exact_ left.toRat right.toRat := by
      rw [distributes, Decimal.toRat, Decimal.toRat, equal]
    rw [exactAndFrames_iff run rfl value]
    simp [Aligned, leftAt, rightAt, equal]
  · have apart := distinct greater.ne'
    have slt : right.scale.slt left.scale = true := by simp [BitVec.slt, greater]
    let shift := (left.scale.toInt - right.scale.toInt).toNat
    have run : alignedResult combine heap self num = some
        (heap.set num { right with value := right.value * 10 ^ shift } ++
          [{ value := combine left.value (right.value * 10 ^ shift),
             scale := left.scale }]) := by
      simp [alignedResult, alignDecimals_of_gt leftAt rightAt rightNonneg greater, numIn,
        List.getElem?_set_ne apart.symm, leftAt, slt, shift]
    have value : scaled (10 : ℚ) (combine left.value (right.value * 10 ^ shift))
        left.scale.toInt = exact_ left.toRat right.toRat := by
      rw [distributes, toRat_shift right greater.le, Decimal.toRat, Decimal.toRat]
    rw [exactAndFrames_iff run List.length_set value, List.getElem?_set_self numIn,
      List.getElem?_set_ne apart.symm, Option.some.injEq, with_scaled_value_iff (by omega)]
    have other : left.scale ≠ right.scale := fun equal => greater.ne (by rw [equal])
    simp [Aligned, leftAt, greater, greater.not_gt, other]

theorem decimalMul_iff (leftAt : heap[self]? = some left) (rightAt : heap[num]? = some right)
    (leftNonneg : 0 ≤ left.scale.toInt) (rightNonneg : 0 ≤ right.scale.toInt) :
    ExactAndFrames decimalMul (· * ·) heap self num left right ↔
      left.scale.toInt + right.scale.toInt ≤ longMax := by
  have bound := long_bounds left.scale
  have overflow : BitVec.saddOverflow left.scale right.scale = true ↔
      longMax < left.scale.toInt + right.scale.toInt := by
    simp only [BitVec.saddOverflow, Bool.or_eq_true, decide_eq_true_eq, longMax]
    omega
  cases overflows : BitVec.saddOverflow left.scale right.scale with
  | true =>
      have large := overflow.mp overflows
      refine iff_of_false ?_ (by omega)
      rintro ⟨after, result, run, _⟩
      simp [decimalMul, leftAt, rightAt, overflows] at run
  | false =>
      have small : left.scale.toInt + right.scale.toInt ≤ longMax := by
        by_contra large
        rw [overflow.mpr (by omega)] at overflows
        exact Bool.noConfusion overflows
      have sum : (left.scale + right.scale).toInt =
          left.scale.toInt + right.scale.toInt :=
        BitVec.toInt_add_of_not_saddOverflow (by simp [overflows])
      have run : decimalMul heap self num = some (heap ++
          [{ value := left.value * right.value, scale := left.scale + right.scale }]) := by
        simp [decimalMul, leftAt, rightAt, overflows]
      have value : scaled (10 : ℚ) (left.value * right.value)
          (left.scale + right.scale).toInt = left.toRat * right.toRat := by
        rw [sum, scaled_mul (by norm_num), Decimal.toRat, Decimal.toRat]
      rw [exactAndFrames_iff run rfl value]
      simp [leftAt, rightAt, small]

/-- Sums and differences are always exact and leave their operands alone exactly when
nothing has to be aligned; products do both as long as the scale fits. -/
theorem decimal_arithmetic_iff (leftAt : heap[self]? = some left)
    (rightAt : heap[num]? = some right) (leftNonneg : 0 ≤ left.scale.toInt)
    (rightNonneg : 0 ≤ right.scale.toInt) :
    (ExactAndFrames decimalAdd (· + ·) heap self num left right ↔ Aligned left right) ∧
    (ExactAndFrames decimalSub (· - ·) heap self num left right ↔ Aligned left right) ∧
    (ExactAndFrames decimalMul (· * ·) heap self num left right ↔
      left.scale.toInt + right.scale.toInt ≤ longMax) :=
  ⟨alignedResult_iff scaled_add leftAt rightAt leftNonneg rightNonneg,
    alignedResult_iff scaled_sub leftAt rightAt leftNonneg rightNonneg,
    decimalMul_iff leftAt rightAt leftNonneg rightNonneg⟩

theorem decimal_doubles_itself :
    ExactAndFrames decimalAdd (· + ·) [{ value := 25, scale := 1 }] 0 0
      { value := 25, scale := 1 } { value := 25, scale := 1 } :=
  (@decimal_arithmetic_iff [{ value := 25, scale := 1 }] 0 0 _ _ rfl rfl (by decide)
    (by decide)).1.mpr (Or.inl rfl)

/-- After `1 + 0.5` the first operand is `10`. -/
theorem decimal_add_changes_its_operand :
    decimalAdd [{ value := 1, scale := 0 }, { value := 5, scale := 1 }] 0 1 =
        some [{ value := 10, scale := 0 }, { value := 5, scale := 1 },
          { value := 15, scale := 1 }] ∧
      ¬ ExactAndFrames decimalAdd (· + ·)
        [{ value := 1, scale := 0 }, { value := 5, scale := 1 }] 0 1
        { value := 1, scale := 0 } { value := 5, scale := 1 } := by
  have run : decimalAdd [{ value := 1, scale := 0 }, { value := 5, scale := 1 }] 0 1 =
      some ([{ value := 10, scale := 0 }, { value := 5, scale := 1 }] ++
        [{ value := 15, scale := 1 }]) := by decide
  refine ⟨run, ?_⟩
  rintro ⟨after, result, other, length, _, leftAfter, _⟩
  obtain ⟨rfl, _⟩ := List.append_inj (Option.some.inj (run.symm.trans other)) length.symm
  exact absurd leftAfter (by decide)

end

end PhpDriver
