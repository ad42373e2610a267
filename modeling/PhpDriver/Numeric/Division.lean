import PhpDriver.Numeric.Arithmetic

namespace PhpDriver

open Data

/-! Quotients and remainders in `Varint.c`, and the division of integers in all four classes. -/

/-- The argument of a method of `Varint`: an object of the class, or anything else. -/
inductive VarintOperand where
  | number (num : Int)
  | other
deriving DecidableEq

def withVarint (operation : Int → Except NumericError Int) : VarintOperand → Except NumericError Int
  | .number num => operation num
  | .other => .error (.invalidArgument "an instance of Cassandra\\Varint")

/-- `mpz_div` rounds down. -/
def varintDiv (self : Int) : VarintOperand → Except NumericError Int :=
  withVarint fun varint =>
    if varint = 0 then .error (.divideByZero "Cannot divide by zero")
    else .ok (self.fdiv varint)

/-- The result of `mpz_mod` is never negative. -/
def varintMod (self : Int) : VarintOperand → Except NumericError Int :=
  withVarint fun varint =>
    if varint = 0 then .error (.divideByZero "Cannot modulo by zero")
    else .ok (self % varint)

def Computed.number? {width : Nat} : Computed width → Option Int
  | .value result => some result.toInt
  | .exception _ | .undefined => none

theorem IsExact.number?_eq {width : Nat} {computed : Computed width} {n : Int}
    (exact_ : IsExact computed (.number n)) (fits : Fits width n) : computed.number? = some n := by
  cases exact_ with
  | number result => rfl
  | wide wide message => exact absurd fits wide

inductive IntegerClass where
  | varint | bigint | smallint | tinyint
deriving DecidableEq

namespace IntegerClass

def Holds : IntegerClass → Int → Prop
  | .varint, _ => True
  | .bigint, n => Fits 64 n
  | .smallint, n => Fits 16 n
  | .tinyint, n => Fits 8 n

def div : IntegerClass → Int → Int → Option Int
  | .varint, a, b => (varintDiv a (.number b)).toOption
  | .bigint, a, b =>
      (bigintClass.call (BitVec.ofInt 64 a) (.div (.number (BitVec.ofInt 64 b)))).number?
  | .smallint, a, b =>
      (smallintClass.call (BitVec.ofInt 16 a) (.div (.number (BitVec.ofInt 16 b)))).number?
  | .tinyint, a, b =>
      (tinyintClass.call (BitVec.ofInt 8 a) (.div (.number (BitVec.ofInt 8 b)))).number?

def mod : IntegerClass → Int → Int → Option Int
  | .varint, a, b => (varintMod a (.number b)).toOption
  | .bigint, a, b =>
      (bigintClass.call (BitVec.ofInt 64 a) (.mod (.number (BitVec.ofInt 64 b)))).number?
  | .smallint, a, b =>
      (smallintClass.call (BitVec.ofInt 16 a) (.mod (.number (BitVec.ofInt 16 b)))).number?
  | .tinyint, a, b =>
      (tinyintClass.call (BitVec.ofInt 8 a) (.mod (.number (BitVec.ofInt 8 b)))).number?

structure CanDivide (numeric : IntegerClass) (a b : Int) : Prop where
  dividend : numeric.Holds a
  divisor : numeric.Holds b
  quotient : numeric.Holds (a.tdiv b)

/-- The quotient and the remainder make up the dividend, and the remainder is the smaller. -/
def DivisionIdentity (numeric : IntegerClass) (a b : Int) : Prop :=
  ∃ q r, numeric.div a b = some q ∧ numeric.mod a b = some r ∧ a = q * b + r ∧
    r.natAbs < b.natAbs

def SameDivision (one other : IntegerClass) (a b : Int) : Prop :=
  one.div a b = other.div a b ∧ one.mod a b = other.mod a b

end IntegerClass

/-- Every class that can divide the two numbers does so exactly, and all in the same way. -/
def DividesAlike (a b : Int) : Prop :=
  (∀ numeric : IntegerClass, numeric.CanDivide a b → numeric.DivisionIdentity a b) ∧
    ∀ one other : IntegerClass, one.CanDivide a b → other.CanDivide a b → one.SameDivision other a b

section

variable {a b : Int}

/-- The floor goes with a remainder that has the sign of the divisor. -/
theorem floor_identity_iff (nonzero : b ≠ 0) :
    a = a.fdiv b * b + a % b ↔ 0 < b ∨ b ∣ a := by
  have whole := Int.mul_fdiv_add_fmod a b
  have remainder := @Int.fmod_eq_emod a b
  rw [Int.mul_comm] at whole
  constructor
  · intro identity
    split at remainder <;> omega
  · intro known
    have sign : 0 ≤ b ∨ b ∣ a := known.imp_left Int.le_of_lt
    rw [if_pos sign] at remainder
    omega

/-- Truncation and the floor differ unless nothing is cut off or no sign is there. -/
theorem truncation_eq_floor_iff (nonzero : b ≠ 0) :
    a.tdiv b = a.fdiv b ∧ a.tmod b = a % b ↔ b ∣ a ∨ 0 ≤ a ∧ 0 < b := by
  have quotient := @Int.tdiv_eq_fdiv a b
  have remainder := @Int.tmod_eq_emod a b
  constructor
  · rintro ⟨sameQuotient, sameRemainder⟩
    by_cases divides : b ∣ a
    · exact Or.inl divides
    · rw [if_neg divides] at quotient
      have nonneg : 0 ≤ a := by
        split at remainder
        · rename_i known
          exact known.resolve_right divides
        · omega
      rw [if_pos nonneg] at quotient
      split at quotient <;> omega
  · rintro (divides | ⟨nonneg, positive⟩)
    · rw [if_pos divides] at quotient
      rw [if_pos (Or.inr divides)] at remainder
      omega
    · rw [if_pos nonneg, if_pos positive.le, ite_self] at quotient
      rw [if_pos (Or.inl nonneg)] at remainder
      omega

end

namespace IntegerClass

variable {a b : Int}

theorem varint_div (nonzero : b ≠ 0) :
    varint.div a b = some (a.fdiv b) ∧ varint.mod a b = some (a % b) := by
  simp only [div, mod, varintDiv, varintMod, withVarint, if_neg nonzero]
  exact ⟨rfl, rfl⟩

/-- The C operators, where the operands are converted without loss. -/
theorem fixed_div {width : Nat} (positive : 0 < width) (numeric : FixedClass width)
    (div_exact : ∀ self num, IsExact (numeric.call self (.div (.number num)))
      (FixedCall.expected self.toInt (.div (.number num))) ↔
        ¬ (self = BitVec.intMin width ∧ num.toInt = -1))
    (mod_exact : ∀ self num, ¬ (self = BitVec.intMin width ∧ num.toInt = -1) →
      IsExact (numeric.call self (.mod (.number num)))
        (FixedCall.expected self.toInt (.mod (.number num))))
    (nonzero : b ≠ 0) (dividend : Fits width a) (divisor : Fits width b)
    (quotient : Fits width (a.tdiv b)) :
    (numeric.call (BitVec.ofInt width a) (.div (.number (BitVec.ofInt width b)))).number? =
        some (a.tdiv b) ∧
      (numeric.call (BitVec.ofInt width a) (.mod (.number (BitVec.ofInt width b)))).number? =
        some (a.tmod b) := by
  have self := (toInt_ofInt_iff positive).mpr dividend
  have num := (toInt_ofInt_iff positive).mpr divisor
  have defined : ¬ (BitVec.ofInt width a = BitVec.intMin width ∧
      (BitVec.ofInt width b).toInt = -1) := by
    rw [eq_intMin_iff positive, self, num]
    exact (fits_tdiv_iff dividend nonzero).mp quotient
  have divided := (div_exact _ _).mpr defined
  have rest := mod_exact _ _ defined
  simp only [FixedCall.expected, FixedCall.expectedOf, self, num, if_neg nonzero] at divided rest
  exact ⟨divided.number?_eq quotient, rest.number?_eq (fits_tmod dividend b)⟩

theorem div_of_ne_varint {numeric : IntegerClass} (fixed : numeric ≠ varint) (nonzero : b ≠ 0)
    (able : numeric.CanDivide a b) :
    numeric.div a b = some (a.tdiv b) ∧ numeric.mod a b = some (a.tmod b) := by
  obtain ⟨dividend, divisor, quotient⟩ := able
  cases numeric with
  | varint => exact absurd rfl fixed
  | bigint =>
      apply fixed_div (by decide) bigintClass bigintDiv_isExact_iff _ nonzero dividend divisor
        quotient
      intro self num
      exact (bigintMod_isExact_iff self num).mpr
  | smallint =>
      apply fixed_div (by decide) smallintClass (narrowDiv_isExact_iff (by decide) (by decide)) _
        nonzero dividend divisor quotient
      intro self num _
      exact narrowMod_isExact (by decide) (by decide) self num
  | tinyint =>
      apply fixed_div (by decide) tinyintClass (narrowDiv_isExact_iff (by decide) (by decide)) _
        nonzero dividend divisor quotient
      intro self num _
      exact narrowMod_isExact (by decide) (by decide) self num

theorem varint_identity_iff (nonzero : b ≠ 0) :
    varint.DivisionIdentity a b ↔ 0 < b ∨ b ∣ a := by
  obtain ⟨quotient, remainder⟩ := @varint_div a b nonzero
  have nonneg := Int.emod_nonneg a nonzero
  have below := Int.emod_lt a nonzero
  rw [← floor_identity_iff nonzero]
  constructor
  · intro identity
    obtain ⟨q, r, isQuotient, isRemainder, whole, _⟩ := identity
    obtain rfl := Option.some.inj (quotient.symm.trans isQuotient)
    obtain rfl := Option.some.inj (remainder.symm.trans isRemainder)
    exact whole
  · intro whole
    exact ⟨_, _, quotient, remainder, whole, by omega⟩

theorem fixed_identity {numeric : IntegerClass} (fixed : numeric ≠ varint) (nonzero : b ≠ 0)
    (able : numeric.CanDivide a b) : numeric.DivisionIdentity a b := by
  obtain ⟨quotient, remainder⟩ := div_of_ne_varint fixed nonzero able
  refine ⟨_, _, quotient, remainder, (Int.tdiv_mul_add_tmod a b).symm, ?_⟩
  rw [Int.natAbs_tmod]
  exact Nat.mod_lt _ (by omega)

theorem sameDivision_varint_iff {numeric : IntegerClass} (fixed : numeric ≠ varint)
    (nonzero : b ≠ 0) (able : numeric.CanDivide a b) :
    numeric.SameDivision varint a b ↔ b ∣ a ∨ 0 ≤ a ∧ 0 < b := by
  obtain ⟨quotient, remainder⟩ := div_of_ne_varint fixed nonzero able
  obtain ⟨floor, nonneg⟩ := @varint_div a b nonzero
  rw [SameDivision, quotient, remainder, floor, nonneg, Option.some.injEq, Option.some.injEq]
  exact truncation_eq_floor_iff nonzero

theorem Holds.fits {numeric : IntegerClass} (fixed : numeric ≠ varint) {n : Int}
    (holds : numeric.Holds n) : Fits 64 n := by
  cases numeric with
  | varint => exact absurd rfl fixed
  | bigint => exact holds
  | smallint => exact Fits.mono (by decide : 16 ≤ 64) holds
  | tinyint => exact Fits.mono (by decide : 8 ≤ 64) holds

theorem sameDivision_of (nonzero : b ≠ 0)
    (known : ∀ numeric : IntegerClass, numeric ≠ varint → numeric.CanDivide a b →
      b ∣ a ∨ 0 ≤ a ∧ 0 < b)
    {one other : IntegerClass} (oneAble : one.CanDivide a b) (otherAble : other.CanDivide a b) :
    one.SameDivision other a b := by
  by_cases oneFixed : one = varint
  · by_cases otherFixed : other = varint
    · rw [oneFixed, otherFixed]
      exact ⟨rfl, rfl⟩
    · have same := (sameDivision_varint_iff otherFixed nonzero otherAble).mpr
        (known other otherFixed otherAble)
      rw [oneFixed]
      exact ⟨same.1.symm, same.2.symm⟩
  · by_cases otherFixed : other = varint
    · rw [otherFixed]
      exact (sameDivision_varint_iff oneFixed nonzero oneAble).mpr (known one oneFixed oneAble)
    · obtain ⟨oneQuotient, oneRemainder⟩ := div_of_ne_varint oneFixed nonzero oneAble
      obtain ⟨otherQuotient, otherRemainder⟩ := div_of_ne_varint otherFixed nonzero otherAble
      exact ⟨oneQuotient.trans otherQuotient.symm, oneRemainder.trans otherRemainder.symm⟩

end IntegerClass

/-- A division that leaves a rest is as it should be for positive divisors only, and where a
fixed-width class holds the numbers for non-negative dividends only. -/
theorem dividesAlike_iff {a b : Int} (nonzero : b ≠ 0) :
    DividesAlike a b ↔ b ∣ a ∨ 0 < b ∧ (0 ≤ a ∨ ¬ (Fits 64 a ∧ Fits 64 b)) := by
  constructor
  · intro alike
    obtain ⟨identity, same⟩ := alike
    have varintAble : IntegerClass.varint.CanDivide a b := ⟨trivial, trivial, trivial⟩
    have sign := (IntegerClass.varint_identity_iff nonzero).mp (identity .varint varintAble)
    by_cases divides : b ∣ a
    · exact Or.inl divides
    · have positive := sign.resolve_right divides
      refine Or.inr ⟨positive, ?_⟩
      by_cases fits : Fits 64 a ∧ Fits 64 b
      · have quotient := (fits_tdiv_iff fits.1 nonzero).mpr fun least => by omega
        have bigintAble : IntegerClass.bigint.CanDivide a b := ⟨fits.1, fits.2, quotient⟩
        have agree := same .bigint .varint bigintAble varintAble
        rw [IntegerClass.sameDivision_varint_iff (by decide) nonzero bigintAble] at agree
        exact Or.inl (agree.resolve_left divides).1
      · exact Or.inr fits
  · intro known
    constructor
    · intro numeric able
      by_cases fixed : numeric = .varint
      · rw [fixed, IntegerClass.varint_identity_iff nonzero]
        exact known.symm.imp_left And.left
      · exact IntegerClass.fixed_identity fixed nonzero able
    · intro one other oneAble otherAble
      apply IntegerClass.sameDivision_of nonzero _ oneAble otherAble
      intro numeric fixed able
      have fits := And.intro (able.dividend.fits fixed) (able.divisor.fits fixed)
      exact known.imp_right fun ⟨positive, rest⟩ =>
        ⟨rest.resolve_right (not_not_intro fits), positive⟩

/-- Seven by two, where nothing is negative. -/
theorem seven_by_two_is_alike : DividesAlike 7 2 :=
  (dividesAlike_iff (by decide)).mpr (Or.inr ⟨by decide, Or.inl (by decide)⟩)

/-- The quotient 3 and the remainder 1 of -7 by -2, and two quotients of -7 by 2. -/
theorem not_dividesAlike :
    IntegerClass.varint.div (-7) (-2) = some 3 ∧ IntegerClass.varint.mod (-7) (-2) = some 1 ∧
      IntegerClass.bigint.div (-7) 2 = some (-3) ∧ IntegerClass.varint.div (-7) 2 = some (-4) ∧
      ¬ ∀ a b : Int, b ≠ 0 → DividesAlike a b := by
  refine ⟨by decide, by decide, by decide +kernel, by decide, fun alike => ?_⟩
  have able : IntegerClass.varint.CanDivide (-7) (-2) := ⟨trivial, trivial, trivial⟩
  have identity := (alike (-7) (-2) (by decide)).1 .varint able
  rw [IntegerClass.varint_identity_iff (by decide)] at identity
  exact absurd identity (by decide)

end PhpDriver
