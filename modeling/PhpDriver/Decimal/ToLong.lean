import PhpDriver.Data.Truncation
import PhpDriver.Decimal.Arithmetic

namespace PhpDriver

open Data Data.Truncation

/-! `toInt` of `Decimal.c`: `to_long` over `to_mpf`. -/

/-! The floating-point numbers of GMP, outside the repository: every operation cuts its
exact result to a working precision of 64 bits or more. -/

inductive MpfOperation where
  | setZ
  | setSi
  | powUi
  | uiDiv
  | mul
deriving DecidableEq

structure Mpf where
  precision : MpfOperation → ℚ → Nat
  atLeast : ∀ operation exact_, 64 ≤ precision operation exact_

namespace Mpf

variable (mpf : Mpf)

def round (operation : MpfOperation) (exact_ : ℚ) : ℚ :=
  truncate (mpf.precision operation exact_) exact_

def setZ (value : Int) : ℚ :=
  mpf.round .setZ value

def setSi (value : Int) : ℚ :=
  mpf.round .setSi value

def powUi (base : ℚ) (exponent : Nat) : ℚ :=
  mpf.round .powUi (base ^ exponent)

def uiDiv (dividend : Nat) (divisor : ℚ) : ℚ :=
  mpf.round .uiDiv (dividend / divisor)

def mul (left right : ℚ) : ℚ :=
  mpf.round .mul (left * right)

def least : Mpf where
  precision _ _ := 64
  atLeast _ _ := Nat.le_refl 64

end Mpf

inductive RangeError where
  | tooSmall
  | tooBig
deriving DecidableEq

def RangeError.message : RangeError → String
  | .tooSmall => "Value is too small"
  | .tooBig => "Value is too big"

variable (mpf : Mpf)

/-- `none` for the least scale, whose negation overflows. -/
def toMpf (decimal : Decimal) : Option ℚ :=
  let result := mpf.setZ decimal.value
  let scale := decimal.scale
  let scaleFactor := mpf.setSi 10
  if scale.negOverflow then none
  else
    let scaleFactor := mpf.powUi scaleFactor scale.toInt.natAbs
    let scaleFactor := if 0 < scale.toInt then mpf.uiDiv 1 scaleFactor else scaleFactor
    some (mpf.mul result scaleFactor)

def toLong (decimal : Decimal) : Option (Except RangeError Int) := do
  let value ← toMpf mpf decimal
  if value < ((-longMax - 1 : Int) : ℚ) then some (.error .tooSmall)
  else if ((longMax : Int) : ℚ) < value then some (.error .tooBig)
  else some (.ok (towardZero value))

/-- The exact number cut to an integer, or a range exception when it is no `long`. -/
def ToLongExact (decimal : Decimal) : Prop :=
  if ((-longMax - 1 : Int) : ℚ) ≤ decimal.toRat ∧ decimal.toRat ≤ ((longMax : Int) : ℚ) then
    toLong mpf decimal = some (.ok (towardZero decimal.toRat))
  else ∃ error, toLong mpf decimal = some (.error error)

def tenPow (decimal : Decimal) : Nat :=
  10 ^ decimal.scale.toInt.natAbs

def limitOf (decimal : Decimal) : Nat :=
  if decimal.value < 0 then 2 ^ 63 else 2 ^ 63 - 1

def reciprocal (decimal : Decimal) : ℚ :=
  let power := mpf.powUi (mpf.setSi 10) decimal.scale.toInt.natAbs
  if 0 < decimal.scale.toInt then mpf.uiDiv 1 power else power

/-- What the roundings before the multiplication take from the number, in units of its
last decimal place. -/
def lost (decimal : Decimal) : ℚ :=
  |(decimal.value : ℚ)| - tenPow decimal * (|mpf.setZ decimal.value| * reciprocal mpf decimal)

def lastBit (decimal : Decimal) : ℚ :=
  let product := mpf.setZ decimal.value * reciprocal mpf decimal
  unit (mpf.precision .mul product) product

/-- Inside the range the fraction covers what is lost; at an end of the range nothing may
be lost, and the number may grow by less than the last bit; outside it the number stays
outside by the last bit. -/
def RoundingHarmless (decimal : Decimal) : Prop :=
  let magnitude := decimal.value.natAbs
  let bound := tenPow decimal * limitOf decimal
  if magnitude < bound then
    lost mpf decimal ≤ (magnitude % tenPow decimal : Nat) ∧
      ((magnitude % tenPow decimal : Nat) : ℚ) < lost mpf decimal + tenPow decimal
  else if magnitude = bound then
    -(tenPow decimal * lastBit mpf decimal) < lost mpf decimal ∧ lost mpf decimal ≤ 0
  else bound + tenPow decimal * lastBit mpf decimal ≤ magnitude - lost mpf decimal

/-! Magnitudes: the sign passes through every rounding. -/

section

variable {mpf : Mpf} {decimal : Decimal}

theorem Mpf.round_nonneg (operation : MpfOperation) {exact_ : ℚ} (nonneg : 0 ≤ exact_) :
    0 ≤ mpf.round operation exact_ :=
  truncate_nonneg nonneg

theorem reciprocal_nonneg (mpf : Mpf) (decimal : Decimal) : 0 ≤ reciprocal mpf decimal := by
  have power : 0 ≤ mpf.powUi (mpf.setSi 10) decimal.scale.toInt.natAbs :=
    mpf.round_nonneg _ (pow_nonneg (mpf.round_nonneg _ (by norm_num)) _)
  rw [reciprocal]
  split
  · exact mpf.round_nonneg _ (div_nonneg (Nat.cast_nonneg 1) power)
  · exact power

/-- The rounded product and its magnitude, before and after its own rounding. -/
def rounded (mpf : Mpf) (decimal : Decimal) : ℚ :=
  mpf.mul (mpf.setZ decimal.value) (reciprocal mpf decimal)

def productSize (mpf : Mpf) (decimal : Decimal) : ℚ :=
  |mpf.setZ decimal.value| * reciprocal mpf decimal

def productBits (mpf : Mpf) (decimal : Decimal) : Nat :=
  mpf.precision .mul (mpf.setZ decimal.value * reciprocal mpf decimal)

theorem toMpf_eq (nonneg : 0 ≤ decimal.scale.toInt) :
    toMpf mpf decimal = some (rounded mpf decimal) := by
  have fits : decimal.scale.negOverflow = false := by
    rw [BitVec.negOverflow, beq_eq_false_iff_ne]
    omega
  rw [toMpf, fits]
  rfl

theorem productSize_nonneg : 0 ≤ productSize mpf decimal :=
  mul_nonneg (abs_nonneg _) (reciprocal_nonneg mpf decimal)

theorem abs_rounded :
    |rounded mpf decimal| = truncate (productBits mpf decimal) (productSize mpf decimal) := by
  rw [rounded, Mpf.mul, Mpf.round, abs_truncate, abs_mul,
    abs_of_nonneg (reciprocal_nonneg mpf decimal)]
  rfl

theorem setZ_nonneg (nonneg : 0 ≤ decimal.value) : 0 ≤ mpf.setZ decimal.value :=
  mpf.round_nonneg _ (Int.cast_nonneg nonneg)

theorem setZ_nonpos (negative : decimal.value < 0) : mpf.setZ decimal.value ≤ 0 := by
  have magnitude : (0 : ℚ) ≤ -(decimal.value : ℚ) := by
    rw [← Int.cast_neg]
    exact Int.cast_nonneg (by omega)
  have truncated : 0 ≤ truncate (mpf.precision .setZ decimal.value) (-(decimal.value : ℚ)) :=
    truncate_nonneg magnitude
  rw [truncate_neg] at truncated
  rw [Mpf.setZ, Mpf.round]
  linarith

theorem rounded_sign : rounded mpf decimal =
    if decimal.value < 0 then -|rounded mpf decimal| else |rounded mpf decimal| := by
  split
  · rename_i negative
    have product := mul_nonpos_of_nonpos_of_nonneg
      (show mpf.setZ decimal.value ≤ 0 from setZ_nonpos negative)
      (reciprocal_nonneg mpf decimal)
    have opposite : 0 ≤ mpf.round .mul (mpf.setZ decimal.value * reciprocal mpf decimal) * -1 := by
      have truncated : 0 ≤ truncate (productBits mpf decimal)
          (-(mpf.setZ decimal.value * reciprocal mpf decimal)) := truncate_nonneg (by linarith)
      rw [truncate_neg] at truncated
      rw [Mpf.round, mul_neg_one]
      exact truncated
    rw [abs_of_nonpos (by rw [rounded, Mpf.mul]; linarith), neg_neg]
  · rename_i nonneg
    exact (abs_of_nonneg (mpf.round_nonneg _ (mul_nonneg (setZ_nonneg (not_lt.mp nonneg))
      (reciprocal_nonneg mpf decimal)))).symm

def signedLike (decimal : Decimal) (magnitude : Int) : Int :=
  if decimal.value < 0 then -magnitude else magnitude

theorem signedLike_inj {left right : Int} (same : signedLike decimal left = signedLike decimal right) :
    left = right := by
  rw [signedLike, signedLike] at same
  split at same <;> omega

theorem towardZero_signed {magnitude : ℚ} (nonneg : 0 ≤ magnitude) :
    towardZero (if decimal.value < 0 then -magnitude else magnitude) =
      signedLike decimal ⌊magnitude⌋ := by
  rw [signedLike, towardZero]
  split
  · rw [abs_neg, abs_of_nonneg nonneg]
    split
    · rfl
    · have zero : magnitude = 0 := by linarith
      rw [zero, Int.floor_zero, neg_zero]
  · rw [if_neg (by linarith), abs_of_nonneg nonneg]

theorem inRange_signed {magnitude : ℚ} (nonneg : 0 ≤ magnitude) :
    (((-longMax - 1 : Int) : ℚ) ≤ (if decimal.value < 0 then -magnitude else magnitude) ∧
      (if decimal.value < 0 then -magnitude else magnitude) ≤ ((longMax : Int) : ℚ)) ↔
      magnitude ≤ limitOf decimal := by
  rw [limitOf, longMax]
  push_cast
  split <;> norm_num <;> intros <;> linarith

/-! The call, and what it should return, by the two magnitudes. -/

theorem toLong_eq (nonneg : 0 ≤ decimal.scale.toInt) : toLong mpf decimal =
    some (if |rounded mpf decimal| ≤ limitOf decimal then
        .ok (signedLike decimal ⌊|rounded mpf decimal|⌋)
      else .error (if decimal.value < 0 then .tooSmall else .tooBig)) := by
  have range := @inRange_signed decimal _ (abs_nonneg (rounded mpf decimal))
  have cut := @towardZero_signed decimal _ (abs_nonneg (rounded mpf decimal))
  have sign := @rounded_sign mpf decimal
  rw [← sign] at range cut
  rw [toLong, toMpf_eq nonneg, Option.bind_eq_bind, Option.bind_some, cut]
  by_cases inside : |rounded mpf decimal| ≤ limitOf decimal
  · obtain ⟨low, high⟩ := range.mpr inside
    rw [if_neg low.not_gt, if_neg high.not_gt, if_pos inside]
  · rw [if_neg inside]
    by_cases low : rounded mpf decimal < ((-longMax - 1 : Int) : ℚ)
    · have negative : decimal.value < 0 := by
        by_contra positive
        rw [if_neg positive] at sign
        have size := abs_nonneg (rounded mpf decimal)
        rw [longMax] at low
        push_cast at low
        linarith
      rw [if_pos low, if_pos negative]
    · have high : ((longMax : Int) : ℚ) < rounded mpf decimal :=
        not_le.mp fun high => inside (range.mp ⟨not_lt.mp low, high⟩)
      have positive : ¬ decimal.value < 0 := by
        intro negative
        rw [if_pos negative] at sign
        have size := abs_nonneg (rounded mpf decimal)
        rw [longMax] at high
        push_cast at high
        linarith
      rw [if_neg low, if_pos high, if_neg positive]

theorem tenPow_pos (decimal : Decimal) : (0 : ℚ) < tenPow decimal :=
  Nat.cast_pos.mpr (Nat.pow_pos (by decide))

theorem toRat_eq_signed (nonneg : 0 ≤ decimal.scale.toInt) : decimal.toRat =
    if decimal.value < 0 then -((decimal.value.natAbs : ℚ) / tenPow decimal)
    else (decimal.value.natAbs : ℚ) / tenPow decimal := by
  have scale : decimal.scale.toInt = (decimal.scale.toInt.natAbs : Int) := by omega
  have division : decimal.toRat = decimal.value / tenPow decimal := by
    rw [Decimal.toRat, scaled, scale, zpow_neg, zpow_natCast, tenPow, Nat.cast_pow,
      Nat.cast_ofNat, div_eq_mul_inv]
  rw [division, Nat.cast_natAbs, Int.cast_abs]
  split
  · rename_i negative
    rw [abs_of_neg (Int.cast_lt_zero.mpr negative), neg_div, neg_neg]
  · rename_i positive
    rw [abs_of_nonneg (Int.cast_nonneg (not_lt.mp positive))]

/-- Inside the range the product must have the same whole part, outside it must be outside. -/
theorem toLongExact_iff_size (nonneg : 0 ≤ decimal.scale.toInt) : ToLongExact mpf decimal ↔
    if decimal.value.natAbs ≤ tenPow decimal * limitOf decimal then
      |rounded mpf decimal| ≤ limitOf decimal ∧
        ⌊|rounded mpf decimal|⌋ = (decimal.value.natAbs / tenPow decimal : Nat)
    else (limitOf decimal : ℚ) < |rounded mpf decimal| := by
  have positive := tenPow_pos decimal
  have quotient : (0 : ℚ) ≤ (decimal.value.natAbs : ℚ) / tenPow decimal :=
    div_nonneg (Nat.cast_nonneg _) positive.le
  have range : (decimal.value.natAbs : ℚ) / tenPow decimal ≤ limitOf decimal ↔
      decimal.value.natAbs ≤ tenPow decimal * limitOf decimal := by
    rw [div_le_iff₀ positive, mul_comm]
    exact_mod_cast Iff.rfl
  have floor : ⌊(decimal.value.natAbs : ℚ) / tenPow decimal⌋ =
      (decimal.value.natAbs / tenPow decimal : Nat) :=
    Rat.floor_natCast_div_natCast _ _
  rw [ToLongExact, toLong_eq nonneg, toRat_eq_signed nonneg]
  simp only [inRange_signed quotient, range, towardZero_signed quotient, floor]
  split
  · by_cases inside : |rounded mpf decimal| ≤ limitOf decimal
    · rw [if_pos inside]
      constructor
      · intro same
        exact ⟨inside, signedLike_inj (Except.ok.inj (Option.some.inj same))⟩
      · intro same
        rw [same.2]
    · rw [if_neg inside]
      constructor
      · intro same
        cases same
      · intro same
        exact absurd same.1 inside
  · by_cases inside : |rounded mpf decimal| ≤ limitOf decimal
    · rw [if_pos inside]
      constructor
      · rintro ⟨error, thrown⟩
        cases thrown
      · intro outside
        exact absurd inside outside.not_ge
    · rw [if_neg inside]
      exact ⟨fun _ => not_le.mp inside, fun _ => ⟨_, rfl⟩⟩

theorem productSize_eq : (tenPow decimal : ℚ) * productSize mpf decimal =
    decimal.value.natAbs - lost mpf decimal := by
  rw [lost, productSize, Nat.cast_natAbs, Int.cast_abs]
  ring

theorem lastBit_eq :
    lastBit mpf decimal = unit (productBits mpf decimal) (productSize mpf decimal) := by
  rw [lastBit, productSize, productBits, unit, unit, abs_mul, abs_mul, abs_abs]

theorem limitOf_le (decimal : Decimal) : limitOf decimal ≤ 2 ^ 63 := by
  rw [limitOf]
  split <;> omega

theorem productBits_le (mpf : Mpf) (decimal : Decimal) : 64 ≤ productBits mpf decimal :=
  mpf.atLeast .mul _

/-! The rounded product against whole numbers up to the limit. -/

theorem natCast_le_rounded_iff {n : Nat} (le : n ≤ 2 ^ 64) :
    (n : ℚ) ≤ |rounded mpf decimal| ↔ (n : ℚ) ≤ productSize mpf decimal := by
  have bits := productBits_le mpf decimal
  have few : n ≤ 2 ^ productBits mpf decimal := le.trans (Nat.pow_le_pow_right (by decide) bits)
  rw [abs_rounded]
  exact le_truncate_iff productSize_nonneg (representable_natCast (by omega) few)

theorem floor_rounded_eq_iff {n : Nat} (le : n ≤ 2 ^ 63) :
    ⌊|rounded mpf decimal|⌋ = n ↔
      (n : ℚ) ≤ productSize mpf decimal ∧ productSize mpf decimal < n + 1 := by
  have bits := productBits_le mpf decimal
  have few : 2 ^ 64 ≤ 2 ^ productBits mpf decimal := Nat.pow_le_pow_right (by decide) bits
  rw [abs_rounded]
  exact floor_truncate_eq_iff productSize_nonneg (by omega) (by omega)

theorem limit_lt_rounded_iff : (limitOf decimal : ℚ) < |rounded mpf decimal| ↔
    limitOf decimal + lastBit mpf decimal ≤ productSize mpf decimal := by
  have bits := productBits_le mpf decimal
  have few : 2 ^ 63 ≤ 2 ^ (productBits mpf decimal - 1) :=
    Nat.pow_le_pow_right (by decide) (by omega)
  rw [abs_rounded, lastBit_eq]
  exact natCast_lt_truncate_iff productSize_nonneg (by omega) ((limitOf_le decimal).trans few)

theorem le_productSize_iff (bound : ℚ) : bound ≤ productSize mpf decimal ↔
    tenPow decimal * bound ≤ decimal.value.natAbs - lost mpf decimal := by
  rw [← productSize_eq, mul_le_mul_iff_right₀ (tenPow_pos decimal)]

theorem productSize_lt_iff (bound : ℚ) : productSize mpf decimal < bound ↔
    decimal.value.natAbs - lost mpf decimal < tenPow decimal * bound := by
  rw [← not_le, le_productSize_iff, not_le]

/-- The product has the whole part of the number when the fraction covers what is lost. -/
theorem floor_rounded_iff_of_lt
    (inside : decimal.value.natAbs < tenPow decimal * limitOf decimal) :
    |rounded mpf decimal| ≤ limitOf decimal ∧
        ⌊|rounded mpf decimal|⌋ = (decimal.value.natAbs / tenPow decimal : Nat) ↔
      lost mpf decimal ≤ (decimal.value.natAbs % tenPow decimal : Nat) ∧
        ((decimal.value.natAbs % tenPow decimal : Nat) : ℚ) <
          lost mpf decimal + tenPow decimal := by
  have limit := limitOf_le decimal
  have quotient : decimal.value.natAbs / tenPow decimal < limitOf decimal :=
    Nat.div_lt_of_lt_mul inside
  have division : (tenPow decimal : ℚ) * (decimal.value.natAbs / tenPow decimal : Nat) +
      (decimal.value.natAbs % tenPow decimal : Nat) = decimal.value.natAbs := by
    exact_mod_cast Nat.div_add_mod _ _
  rw [floor_rounded_eq_iff (by omega), le_productSize_iff, productSize_lt_iff]
  constructor
  · rintro ⟨_, above, below⟩
    constructor <;> linarith
  · rintro ⟨above, below⟩
    have sizeBelow : decimal.value.natAbs - lost mpf decimal <
        tenPow decimal * ((decimal.value.natAbs / tenPow decimal : Nat) + 1 : ℚ) := by linarith
    refine ⟨?_, by linarith, sizeBelow⟩
    have next : ((decimal.value.natAbs / tenPow decimal : Nat) : ℚ) + 1 ≤ limitOf decimal := by
      exact_mod_cast quotient
    have size := (productSize_lt_iff _).mpr sizeBelow
    rw [abs_rounded]
    exact (truncate_le productSize_nonneg).trans (by linarith)

theorem floor_rounded_iff_of_eq
    (atEnd : decimal.value.natAbs = tenPow decimal * limitOf decimal) :
    |rounded mpf decimal| ≤ limitOf decimal ∧
        ⌊|rounded mpf decimal|⌋ = (decimal.value.natAbs / tenPow decimal : Nat) ↔
      -(tenPow decimal * lastBit mpf decimal) < lost mpf decimal ∧ lost mpf decimal ≤ 0 := by
  have limit := limitOf_le decimal
  have positive : 0 < tenPow decimal := Nat.pow_pos (by decide)
  have quotient : decimal.value.natAbs / tenPow decimal = limitOf decimal := by
    rw [atEnd, Nat.mul_div_cancel_left _ positive]
  have size : (decimal.value.natAbs : ℚ) = tenPow decimal * limitOf decimal := by
    exact_mod_cast atEnd
  have whole : |rounded mpf decimal| ≤ limitOf decimal ∧
      ⌊|rounded mpf decimal|⌋ = (limitOf decimal : Nat) ↔
        ¬ (limitOf decimal : ℚ) < |rounded mpf decimal| ∧
          (limitOf decimal : ℚ) ≤ |rounded mpf decimal| := by
    rw [not_lt]
    apply and_congr_right
    intro high
    constructor
    · intro floor
      have le := Int.floor_le |rounded mpf decimal|
      rwa [floor] at le
    · intro low
      rw [le_antisymm high low, Int.floor_natCast]
  rw [quotient, whole, limit_lt_rounded_iff, natCast_le_rounded_iff (by omega), not_le,
    le_productSize_iff, productSize_lt_iff, size]
  constructor
  · rintro ⟨below, above⟩
    constructor <;> linarith
  · rintro ⟨above, below⟩
    constructor <;> linarith

theorem toLongExact_iff_harmless (nonneg : 0 ≤ decimal.scale.toInt) :
    ToLongExact mpf decimal ↔ RoundingHarmless mpf decimal := by
  rw [toLongExact_iff_size nonneg, RoundingHarmless]
  rcases lt_trichotomy decimal.value.natAbs (tenPow decimal * limitOf decimal) with
    inside | atEnd | outside
  · simp only [if_pos inside.le, if_pos inside]
    exact floor_rounded_iff_of_lt inside
  · simp only [if_pos atEnd.le, if_neg (by omega : ¬ decimal.value.natAbs <
      tenPow decimal * limitOf decimal), if_pos atEnd]
    exact floor_rounded_iff_of_eq atEnd
  · simp only [if_neg outside.not_ge, if_neg outside.not_gt, if_neg outside.ne']
    rw [limit_lt_rounded_iff, le_productSize_iff, mul_add]
    push_cast
    rfl

theorem Mpf.round_natCast (operation : MpfOperation) {n : Nat} (le : n ≤ 2 ^ 64) :
    mpf.round operation (n : ℚ) = n := by
  have bits := mpf.atLeast operation n
  have few : n ≤ 2 ^ mpf.precision operation n :=
    le.trans (Nat.pow_le_pow_right (by decide) bits)
  exact truncate_representable (Nat.cast_nonneg n) (representable_natCast (by omega) few)

theorem abs_setZ : |mpf.setZ decimal.value| =
    truncate (mpf.precision .setZ decimal.value) (decimal.value.natAbs : ℚ) := by
  rw [Mpf.setZ, Mpf.round, abs_truncate, Nat.cast_natAbs, Int.cast_abs]

theorem abs_setZ_of_le (le : decimal.value.natAbs ≤ 2 ^ 64) :
    |mpf.setZ decimal.value| = decimal.value.natAbs := by
  have bits := mpf.atLeast .setZ decimal.value
  have few : decimal.value.natAbs ≤ 2 ^ mpf.precision .setZ decimal.value :=
    le.trans (Nat.pow_le_pow_right (by decide) bits)
  rw [abs_setZ]
  exact truncate_representable (Nat.cast_nonneg _) (representable_natCast (by omega) few)

theorem setSi_ten : mpf.setSi 10 = 10 :=
  mpf.round_natCast .setSi (by decide : 10 ≤ 2 ^ 64)

/-- An integer without a scale is not multiplied by anything but one. -/
theorem toLongExact_of_scale_zero (zero : decimal.scale.toInt = 0) : ToLongExact mpf decimal := by
  have power : tenPow decimal = 1 := by rw [tenPow, zero]; rfl
  have one : reciprocal mpf decimal = 1 := by
    rw [reciprocal, zero, if_neg (by decide), Int.natAbs_zero, Mpf.powUi, pow_zero]
    exact_mod_cast mpf.round_natCast .powUi (by decide : 1 ≤ 2 ^ 64)
  have size : productSize mpf decimal = |mpf.setZ decimal.value| := by
    rw [productSize, one, mul_one]
  have limit := limitOf_le decimal
  rw [toLongExact_iff_size zero.ge, power, Nat.one_mul, Nat.div_one]
  split
  · rename_i inside
    have exact_ : |rounded mpf decimal| = decimal.value.natAbs := by
      have bits := productBits_le mpf decimal
      have few : 2 ^ 64 ≤ 2 ^ productBits mpf decimal := Nat.pow_le_pow_right (by decide) bits
      rw [abs_rounded, size, abs_setZ_of_le (by omega)]
      exact truncate_representable (Nat.cast_nonneg _) (representable_natCast (by omega) (by omega))
    rw [exact_]
    exact ⟨Nat.cast_le.mpr inside, Int.floor_natCast _⟩
  · rename_i outside
    have bits := mpf.atLeast .setZ decimal.value
    have few : 2 ^ 64 ≤ 2 ^ mpf.precision .setZ decimal.value :=
      Nat.pow_le_pow_right (by decide) bits
    have above : ((limitOf decimal + 1 : Nat) : ℚ) ≤ |rounded mpf decimal| := by
      rw [natCast_le_rounded_iff (by omega), size, abs_setZ,
        le_truncate_iff (Nat.cast_nonneg _) (representable_natCast (by omega) (by omega))]
      exact Nat.cast_le.mpr (by omega)
    push_cast at above
    linarith

/-! The reciprocal of a power of ten has no finite binary expansion. -/

theorem representable_tenPow {bits : Nat} (precise : 64 ≤ bits) {scale : Nat} (le : scale ≤ 27) :
    Representable bits ((10 : ℚ) ^ scale) := by
  have five : 5 ^ scale ≤ 5 ^ 27 := Nat.pow_le_pow_right (by decide) le
  have few : 2 ^ 64 ≤ 2 ^ bits := Nat.pow_le_pow_right (by decide) precise
  refine ⟨5 ^ scale, scale, by omega, ?_⟩
  rw [zpow_natCast, Nat.cast_pow, ← mul_pow]
  norm_num

theorem mul_two_zpow_ne_inv {scale : Nat} (positive : 0 < scale) (digits : Int) (exponent : Int) :
    (digits : ℚ) * 2 ^ exponent ≠ 1 / 10 ^ scale := by
  intro same
  rw [eq_div_iff (by positivity)] at same
  have five : (5 : Int) ∣ 10 ^ scale := Dvd.dvd.trans (by decide) (dvd_pow_self 10 positive.ne')
  rcases Int.le_total 0 exponent with nonneg | nonpos
  · obtain ⟨power, rfl⟩ := Int.eq_ofNat_of_zero_le nonneg
    have integers : digits * 2 ^ power * 10 ^ scale = 1 := by
      rw [zpow_natCast] at same
      exact_mod_cast same
    have divides : (5 : Int) ∣ 1 := integers ▸ Dvd.dvd.mul_left five _
    revert divides
    decide
  · obtain ⟨power, negated⟩ := Int.eq_ofNat_of_zero_le (Int.neg_nonneg.mpr nonpos)
    have integers : digits * 10 ^ scale = 2 ^ power := by
      rw [show exponent = -(power : Int) by omega, zpow_neg, zpow_natCast] at same
      field_simp at same
      exact_mod_cast same
    have divides : (5 : Int) ∣ 2 ^ power := integers ▸ Dvd.dvd.mul_left five _
    have power_divides : 5 ∣ 2 ^ power := by exact_mod_cast divides
    have two := Nat.prime_five.dvd_of_dvd_pow power_divides
    revert two
    decide

/-- So the reciprocal is too small, though by less than one part in `2 ^ 63`. -/
theorem reciprocal_bounds (positive : 0 < decimal.scale.toInt)
    (le : decimal.scale.toInt ≤ 27) : tenPow decimal * reciprocal mpf decimal < 1 ∧
      1 < tenPow decimal * reciprocal mpf decimal + 1 / 2 ^ 63 := by
  have power_pos := tenPow_pos decimal
  have power : mpf.powUi (mpf.setSi 10) decimal.scale.toInt.natAbs = tenPow decimal := by
    rw [setSi_ten, Mpf.powUi, Mpf.round, tenPow, Nat.cast_pow, Nat.cast_ofNat]
    exact truncate_representable (by positivity)
      (representable_tenPow (mpf.atLeast _ _) (by omega))
  have inverse : reciprocal mpf decimal =
      truncate (mpf.precision .uiDiv (1 / tenPow decimal)) (1 / tenPow decimal : ℚ) := by
    rw [reciprocal, power, if_pos positive, Mpf.uiDiv, Mpf.round, Nat.cast_one]
  have inverse_pos : (0 : ℚ) < 1 / tenPow decimal := one_div_pos.mpr power_pos
  have precise := mpf.atLeast .uiDiv (1 / tenPow decimal)
  generalize mpf.precision .uiDiv (1 / tenPow decimal) = bits at inverse precise
  have cancel : (tenPow decimal : ℚ) * (1 / tenPow decimal) = 1 :=
    mul_one_div_cancel power_pos.ne'
  have below : reciprocal mpf decimal < 1 / tenPow decimal := by
    rw [inverse]
    apply lt_of_le_of_ne (truncate_le inverse_pos.le)
    rw [truncate_of_nonneg inverse_pos.le, unit, tenPow, Nat.cast_pow, Nat.cast_ofNat]
    exact mul_two_zpow_ne_inv (by omega) _ _
  have above : (1 / tenPow decimal : ℚ) < truncate bits (1 / tenPow decimal : ℚ) +
      unit bits (1 / tenPow decimal : ℚ) := lt_truncate_add_unit inverse_pos.le
  rw [← inverse] at above
  have last : unit bits (1 / tenPow decimal : ℚ) * 2 ^ 64 ≤ 2 * (1 / tenPow decimal) := by
    apply le_trans _ (show unit bits (1 / tenPow decimal : ℚ) * 2 ^ bits ≤
      2 * (1 / tenPow decimal) from unit_mul_le inverse_pos)
    exact mul_le_mul_of_nonneg_left (pow_le_pow_right₀ one_le_two precise)
      (unit_pos _ _).le
  constructor
  · rw [← cancel]
    exact mul_lt_mul_of_pos_left below power_pos
  · have product := mul_lt_mul_of_pos_left above power_pos
    have product_last := mul_le_mul_of_nonneg_left last power_pos.le
    rw [cancel, mul_add] at product
    have small : tenPow decimal * unit bits (1 / tenPow decimal : ℚ) ≤ 1 / 2 ^ 63 := by
      rw [le_div_iff₀ (by positivity)]
      linarith
    linarith

/-- Up to 27 places, a number of 63 bits keeps all its bits, and what it loses is what the
reciprocal is too small. -/
theorem lost_eq (small : decimal.value.natAbs < 2 ^ 63) : lost mpf decimal =
    decimal.value.natAbs * (1 - tenPow decimal * reciprocal mpf decimal) := by
  rw [lost, abs_setZ_of_le (by omega), Nat.cast_natAbs, Int.cast_abs]
  ring

theorem lost_nonneg (positive : 0 < decimal.scale.toInt) (le : decimal.scale.toInt ≤ 27)
    (small : decimal.value.natAbs < 2 ^ 63) : 0 ≤ lost mpf decimal := by
  have below := (@reciprocal_bounds mpf decimal positive le).1
  rw [lost_eq small]
  exact mul_nonneg (Nat.cast_nonneg _) (by linarith)

theorem lost_pos (positive : 0 < decimal.scale.toInt) (le : decimal.scale.toInt ≤ 27)
    (small : decimal.value.natAbs < 2 ^ 63) (nonzero : decimal.value ≠ 0) :
    0 < lost mpf decimal := by
  have below := (@reciprocal_bounds mpf decimal positive le).1
  have magnitude : (0 : ℚ) < decimal.value.natAbs :=
    Nat.cast_pos.mpr (Int.natAbs_pos.mpr nonzero)
  rw [lost_eq small]
  exact mul_pos magnitude (by linarith)

theorem lost_lt_one (positive : 0 < decimal.scale.toInt) (le : decimal.scale.toInt ≤ 27)
    (small : decimal.value.natAbs < 2 ^ 63) : lost mpf decimal < 1 := by
  obtain ⟨below, above⟩ := @reciprocal_bounds mpf decimal positive le
  have magnitude : (decimal.value.natAbs : ℚ) < 2 ^ 63 := by exact_mod_cast small
  have missing : 1 - tenPow decimal * reciprocal mpf decimal < 1 / 2 ^ 63 := by linarith
  have bound := mul_lt_mul'' magnitude missing (Nat.cast_nonneg _) (by linarith)
  rw [mul_one_div_cancel (by positivity)] at bound
  rwa [lost_eq small]

/-- A whole number with decimal places is always missed, and no other. -/
theorem toLongExact_iff_not_whole (positive : 0 < decimal.scale.toInt)
    (le : decimal.scale.toInt ≤ 27) (small : decimal.value.natAbs < 2 ^ 63) :
    ToLongExact mpf decimal ↔ decimal.value = 0 ∨ ¬ tenPow decimal ∣ decimal.value.natAbs := by
  have nonneg := @lost_nonneg mpf decimal positive le small
  have lessOne := @lost_lt_one mpf decimal positive le small
  have inside : decimal.value.natAbs < tenPow decimal * limitOf decimal := by
    have ten : 10 ≤ tenPow decimal :=
      Nat.le_self_pow (by omega : decimal.scale.toInt.natAbs ≠ 0) 10
    have limit : 2 ^ 63 - 1 ≤ limitOf decimal := by
      rw [limitOf]
      split <;> omega
    have product := Nat.mul_le_mul ten limit
    omega
  have fraction : decimal.value.natAbs % tenPow decimal < tenPow decimal :=
    Nat.mod_lt _ (Nat.pow_pos (by decide))
  have fraction_lt : ((decimal.value.natAbs % tenPow decimal : Nat) : ℚ) <
      lost mpf decimal + tenPow decimal := by
    have cast : ((decimal.value.natAbs % tenPow decimal : Nat) : ℚ) < tenPow decimal :=
      Nat.cast_lt.mpr fraction
    linarith
  rw [toLongExact_iff_harmless positive.le, RoundingHarmless]
  simp only [if_pos inside, fraction_lt, and_true]
  constructor
  · intro covered
    by_contra! whole
    have loss := @lost_pos mpf decimal positive le small whole.1
    rw [Nat.mod_eq_zero_of_dvd whole.2, Nat.cast_zero] at covered
    exact absurd covered (not_le.mpr loss)
  · rintro (zero | broken)
    · rw [lost_eq small, zero]
      simp
    · have one : 1 ≤ decimal.value.natAbs % tenPow decimal :=
        Nat.pos_of_ne_zero fun remainder => broken (Nat.dvd_of_mod_eq_zero remainder)
      have cast : (1 : ℚ) ≤ (decimal.value.natAbs % tenPow decimal : Nat) := by exact_mod_cast one
      linarith

/-- The number is cut exactly, or refused for its range, when the roundings do no harm:
always without decimal places; with up to 27 places and a number of 63 bits unless it is
whole and not zero. -/
theorem decimal_toInt_exact_iff (nonneg : 0 ≤ decimal.scale.toInt) :
    (ToLongExact mpf decimal ↔ RoundingHarmless mpf decimal) ∧
      (decimal.scale.toInt = 0 → ToLongExact mpf decimal) ∧
      (0 < decimal.scale.toInt → decimal.scale.toInt ≤ 27 → decimal.value.natAbs < 2 ^ 63 →
        (ToLongExact mpf decimal ↔
          decimal.value = 0 ∨ ¬ tenPow decimal ∣ decimal.value.natAbs)) :=
  ⟨toLongExact_iff_harmless nonneg, toLongExact_of_scale_zero, toLongExact_iff_not_whole⟩

end

theorem fifteen_tenths_is_cut : ToLongExact Mpf.least { value := 15, scale := 1 } :=
  ((@decimal_toInt_exact_iff Mpf.least { value := 15, scale := 1 } (by decide)).2.2
    (by decide) (by decide) (by decide)).mpr (by decide)

/-- `1.0` is converted to zero. -/
theorem ten_tenths_is_missed :
    toLong Mpf.least { value := 10, scale := 1 } = some (.ok 0) ∧
      Decimal.toRat { value := 10, scale := 1 } = 1 ∧
      ¬ ToLongExact Mpf.least { value := 10, scale := 1 } := by
  have missed : ¬ ToLongExact Mpf.least { value := 10, scale := 1 } := by
    rw [toLongExact_iff_not_whole (by decide) (by decide) (by decide)]
    decide
  exact ⟨by decide +kernel, by decide +kernel, missed⟩

end PhpDriver
