import PhpDriver.Data.CInt
import PhpDriver.Data.FixedWidth

namespace PhpDriver

open Data

/-! The arithmetic methods of `Bigint.c`, `Smallint.c` and `Tinyint.c`. -/

inductive NumericError where
  | range (message : String)
  | divideByZero (message : String)
  | invalidArgument (expected : String)
deriving DecidableEq

/-- The number of the new object, the exception, or a C operation without a defined result. -/
inductive Computed (width : Nat) where
  | value (result : BitVec width)
  | exception (error : NumericError)
  | undefined
deriving DecidableEq

/-! `Bigint`: the operations are those of `int64_t`, whose overflow is undefined. -/

def int64 (n : Int) : Computed 64 :=
  if Fits 64 n then .value (BitVec.ofInt 64 n) else .undefined

def bigintAdd (self bigint : BitVec 64) : Computed 64 :=
  int64 (self.toInt + bigint.toInt)

def bigintSub (self bigint : BitVec 64) : Computed 64 :=
  int64 (self.toInt - bigint.toInt)

def bigintMul (self bigint : BitVec 64) : Computed 64 :=
  int64 (self.toInt * bigint.toInt)

def bigintDiv (self bigint : BitVec 64) : Computed 64 :=
  if bigint = 0 then .exception (.divideByZero "Cannot divide by zero")
  else int64 (self.toInt.tdiv bigint.toInt)

def bigintMod (self bigint : BitVec 64) : Computed 64 :=
  if bigint = 0 then .exception (.divideByZero "Cannot modulo by zero")
  -- the remainder is undefined where the quotient is
  else if Fits 64 (self.toInt.tdiv bigint.toInt) then int64 (self.toInt.tmod bigint.toInt)
  else .undefined

def bigintAbs (self : BitVec 64) : Computed 64 :=
  if self = BitVec.intMin 64 then .exception (.range "Value doesn't exist")
  else if self.toInt < 0 then int64 (-self.toInt)
  else .value self

def bigintNeg (self : BitVec 64) : Computed 64 :=
  int64 (-self.toInt)

/-! `Smallint` and `Tinyint`: the operands are promoted to `int`, and the result is converted
back when it is stored. -/

section

variable {width : Nat}

def asInt (n : Int) (rest : Int → Computed width) : Computed width :=
  if Fits 32 n then rest n else .undefined

def narrowAdd (self addend : BitVec width) : Computed width :=
  asInt (self.toInt + addend.toInt) fun sum =>
    let result := BitVec.ofInt width sum
    asInt (result.toInt - addend.toInt) fun back =>
      if back ≠ self.toInt then .exception (.range "Sum is out of range") else .value result

def narrowSub (self difference : BitVec width) : Computed width :=
  asInt (self.toInt - difference.toInt) fun rest =>
    let result := BitVec.ofInt width rest
    asInt (result.toInt + difference.toInt) fun back =>
      if back ≠ self.toInt then .exception (.range "Difference is out of range")
      else .value result

def narrowMul (self multiplier : BitVec width) : Computed width :=
  asInt (self.toInt * multiplier.toInt) fun product =>
    let result := BitVec.ofInt width product
    if multiplier = 0 then .value result
    else
      asInt (result.toInt.tdiv multiplier.toInt) fun back =>
        if back ≠ self.toInt then .exception (.range "Product is out of range")
        else .value result

def narrowDiv (self divisor : BitVec width) : Computed width :=
  if divisor = 0 then .exception (.divideByZero "Cannot divide by zero")
  else asInt (self.toInt.tdiv divisor.toInt) fun quotient => .value (BitVec.ofInt width quotient)

def narrowMod (self divisor : BitVec width) : Computed width :=
  if divisor = 0 then .exception (.divideByZero "Cannot modulo by zero")
  else
    asInt (self.toInt.tdiv divisor.toInt) fun _ =>
      asInt (self.toInt.tmod divisor.toInt) fun rest => .value (BitVec.ofInt width rest)

def narrowAbs (self : BitVec width) : Computed width :=
  if self = BitVec.intMin width then .exception (.range "Value doesn't exist")
  else if self.toInt < 0 then
    asInt (-self.toInt) fun opposite => .value (BitVec.ofInt width opposite)
  else .value self

def narrowNeg (self : BitVec width) : Computed width :=
  if self = BitVec.intMin width then .exception (.range "Value doesn't exist")
  else asInt (-self.toInt) fun opposite => .value (BitVec.ofInt width opposite)

end

def smallintAdd : BitVec 16 → BitVec 16 → Computed 16 := narrowAdd
def smallintSub : BitVec 16 → BitVec 16 → Computed 16 := narrowSub
def smallintMul : BitVec 16 → BitVec 16 → Computed 16 := narrowMul
def smallintDiv : BitVec 16 → BitVec 16 → Computed 16 := narrowDiv
def smallintMod : BitVec 16 → BitVec 16 → Computed 16 := narrowMod
def smallintAbs : BitVec 16 → Computed 16 := narrowAbs
def smallintNeg : BitVec 16 → Computed 16 := narrowNeg

def tinyintAdd : BitVec 8 → BitVec 8 → Computed 8 := narrowAdd
def tinyintSub : BitVec 8 → BitVec 8 → Computed 8 := narrowSub
def tinyintMul : BitVec 8 → BitVec 8 → Computed 8 := narrowMul
def tinyintDiv : BitVec 8 → BitVec 8 → Computed 8 := narrowDiv
def tinyintMod : BitVec 8 → BitVec 8 → Computed 8 := narrowMod
def tinyintAbs : BitVec 8 → Computed 8 := narrowAbs
def tinyintNeg : BitVec 8 → Computed 8 := narrowNeg

/-- The argument of a method: an object of its class, or anything else. -/
inductive Operand (width : Nat) where
  | number (num : BitVec width)
  | other
deriving DecidableEq

inductive FixedCall (width : Nat) where
  | add (num : Operand width)
  | sub (num : Operand width)
  | mul (num : Operand width)
  | div (num : Operand width)
  | mod (num : Operand width)
  | abs
  | neg
deriving DecidableEq

structure FixedClass (width : Nat) where
  expected : String
  add : BitVec width → BitVec width → Computed width
  sub : BitVec width → BitVec width → Computed width
  mul : BitVec width → BitVec width → Computed width
  div : BitVec width → BitVec width → Computed width
  mod : BitVec width → BitVec width → Computed width
  abs : BitVec width → Computed width
  neg : BitVec width → Computed width

-- two of the three texts have a single backslash, which C drops
def bigintClass : FixedClass 64 where
  expected := "a CassandraBigint"
  add := bigintAdd
  sub := bigintSub
  mul := bigintMul
  div := bigintDiv
  mod := bigintMod
  abs := bigintAbs
  neg := bigintNeg

def smallintClass : FixedClass 16 where
  expected := "a Cassandra\\Smallint"
  add := smallintAdd
  sub := smallintSub
  mul := smallintMul
  div := smallintDiv
  mod := smallintMod
  abs := smallintAbs
  neg := smallintNeg

def tinyintClass : FixedClass 8 where
  expected := "a CassandraTinyint"
  add := tinyintAdd
  sub := tinyintSub
  mul := tinyintMul
  div := tinyintDiv
  mod := tinyintMod
  abs := tinyintAbs
  neg := tinyintNeg

namespace FixedClass

variable {width : Nat}

def withOperand (numeric : FixedClass width) (operation : BitVec width → Computed width) :
    Operand width → Computed width
  | .number num => operation num
  | .other => .exception (.invalidArgument numeric.expected)

def call (numeric : FixedClass width) (self : BitVec width) : FixedCall width → Computed width
  | .add num => numeric.withOperand (numeric.add self) num
  | .sub num => numeric.withOperand (numeric.sub self) num
  | .mul num => numeric.withOperand (numeric.mul self) num
  | .div num => numeric.withOperand (numeric.div self) num
  | .mod num => numeric.withOperand (numeric.mod self) num
  | .abs => numeric.abs self
  | .neg => numeric.neg self

end FixedClass

/-- A number, if the divisor is not zero and the argument is one. -/
inductive Expected where
  | number (n : Int)
  | divisorZero
  | noNumber

namespace FixedCall

variable {width : Nat}

def expectedOf (operation : Int → Expected) : Operand width → Expected
  | .number num => operation num.toInt
  | .other => .noNumber

def expected (self : Int) : FixedCall width → Expected
  | .add num => expectedOf (fun n => .number (self + n)) num
  | .sub num => expectedOf (fun n => .number (self - n)) num
  | .mul num => expectedOf (fun n => .number (self * n)) num
  | .div num => expectedOf (fun n => if n = 0 then .divisorZero else .number (self.tdiv n)) num
  | .mod num => expectedOf (fun n => if n = 0 then .divisorZero else .number (self.tmod n)) num
  | .abs => .number self.natAbs
  | .neg => .number (-self)

end FixedCall

/-- The exact result, or the exception that says why there is none. -/
inductive IsExact {width : Nat} : Computed width → Expected → Prop
  | number (result : BitVec width) : IsExact (.value result) (.number result.toInt)
  | wide {n : Int} (wide : ¬ Fits width n) (message : String) :
      IsExact (.exception (.range message)) (.number n)
  | divisorZero (message : String) :
      IsExact (.exception (.divideByZero message)) .divisorZero
  | noNumber (expected : String) : IsExact (.exception (.invalidArgument expected)) .noNumber

section

variable {width : Nat}

theorem isExact_value (positive : 0 < width) {n : Int} :
    IsExact (.value (BitVec.ofInt width n)) (.number n) ↔ Fits width n := by
  rw [← toInt_ofInt_iff positive]
  constructor
  · generalize BitVec.ofInt width n = result
    intro exact_
    cases exact_
    rfl
  · intro same
    have exact_ := IsExact.number (BitVec.ofInt width n)
    rwa [same] at exact_

theorem isExact_checked (positive : 0 < width) {n back self : Int} {message : String}
    (found : back = self ↔ Fits width n) :
    IsExact (if back ≠ self then .exception (.range message) else .value (BitVec.ofInt width n))
      (.number n) := by
  by_cases fits : Fits width n
  · rw [if_neg (not_not_intro (found.mpr fits))]
    exact (isExact_value positive).mpr fits
  · rw [if_pos fun same => fits (found.mp same)]
    exact .wide fits message

theorem not_isExact_undefined {expected : Expected} :
    ¬ IsExact (.undefined : Computed width) expected := by
  intro exact_
  cases exact_

theorem int64_isExact_iff {n : Int} : IsExact (int64 n) (.number n) ↔ Fits 64 n := by
  rw [int64]
  split
  · exact isExact_value (by decide)
  · rename_i wide
    exact iff_of_false not_isExact_undefined wide

/-- Neither the magnitude nor the opposite of the least number fits. -/
theorem isExact_least (positive : 0 < width) (message : String) :
    IsExact (.exception (.range message) : Computed width)
      (.number (-(BitVec.intMin width).toInt)) := by
  apply IsExact.wide
  rw [fits_neg_iff positive]
  exact not_not_intro rfl

end

/-! `Bigint`. -/

namespace FixedCall

/-- The additions, subtractions and products that fit, and no quotient or opposite of the
least number that does not. -/
def BigintSafe (self : BitVec 64) : FixedCall 64 → Prop
  | .add (.number num) => Fits 64 (self.toInt + num.toInt)
  | .sub (.number num) => Fits 64 (self.toInt - num.toInt)
  | .mul (.number num) => Fits 64 (self.toInt * num.toInt)
  | .div (.number num) | .mod (.number num) => ¬ (self = BitVec.intMin 64 ∧ num.toInt = -1)
  | .neg => self ≠ BitVec.intMin 64
  | _ => True

def NarrowSafe {width : Nat} (self : BitVec width) : FixedCall width → Prop
  | .div (.number num) => ¬ (self = BitVec.intMin width ∧ num.toInt = -1)
  | _ => True

end FixedCall

theorem toInt_eq_zero_iff {width : Nat} {num : BitVec width} : num.toInt = 0 ↔ num = 0 := by
  rw [← BitVec.toInt_inj]
  simp

theorem bigintDiv_isExact_iff (self num : BitVec 64) :
    IsExact (bigintDiv self num) (FixedCall.expected self.toInt (.div (.number num))) ↔
      ¬ (self = BitVec.intMin 64 ∧ num.toInt = -1) := by
  rw [bigintDiv, FixedCall.expected, FixedCall.expectedOf]
  by_cases zero : num = 0
  · rw [if_pos zero, if_pos (toInt_eq_zero_iff.mpr zero)]
    exact iff_of_true (.divisorZero _) (by simp [zero])
  · have nonzero := mt toInt_eq_zero_iff.mp zero
    rw [if_neg zero, if_neg nonzero, int64_isExact_iff, fits_tdiv_iff (fits_toInt self) nonzero,
      eq_intMin_iff (by decide)]

theorem bigintMod_isExact_iff (self num : BitVec 64) :
    IsExact (bigintMod self num) (FixedCall.expected self.toInt (.mod (.number num))) ↔
      ¬ (self = BitVec.intMin 64 ∧ num.toInt = -1) := by
  rw [bigintMod, FixedCall.expected, FixedCall.expectedOf]
  by_cases zero : num = 0
  · rw [if_pos zero, if_pos (toInt_eq_zero_iff.mpr zero)]
    exact iff_of_true (.divisorZero _) (by simp [zero])
  · have nonzero := mt toInt_eq_zero_iff.mp zero
    rw [if_neg zero, if_neg nonzero, eq_intMin_iff (by decide),
      ← fits_tdiv_iff (fits_toInt self) nonzero]
    split
    · rename_i fits
      exact iff_of_true (int64_isExact_iff.mpr (fits_tmod (fits_toInt self) _)) fits
    · rename_i wide
      exact iff_of_false not_isExact_undefined wide

theorem bigintNeg_isExact_iff (self : BitVec 64) :
    IsExact (bigintNeg self) (.number (-self.toInt)) ↔ self ≠ BitVec.intMin 64 := by
  rw [bigintNeg, int64_isExact_iff, fits_neg_iff (by decide)]

theorem bigintAbs_isExact (self : BitVec 64) :
    IsExact (bigintAbs self) (.number self.toInt.natAbs) := by
  rw [bigintAbs, natAbs_toInt]
  split
  · rename_i least
    rw [if_pos (by rw [least]; exact toInt_intMin_neg (by decide)), least]
    exact isExact_least (by decide) _
  · rename_i other
    split
    · exact (bigintNeg_isExact_iff self).mpr other
    · exact .number self

theorem bigint_call_isExact_iff (self : BitVec 64) (call : FixedCall 64) :
    IsExact (bigintClass.call self call) (call.expected self.toInt) ↔ call.BigintSafe self := by
  cases call with
  | abs => exact iff_of_true (bigintAbs_isExact self) trivial
  | neg => exact bigintNeg_isExact_iff self
  | add num | sub num | mul num => cases num with
    | number num => exact int64_isExact_iff
    | other => exact iff_of_true (.noNumber _) trivial
  | div num => cases num with
    | number num => exact bigintDiv_isExact_iff self num
    | other => exact iff_of_true (.noNumber _) trivial
  | mod num => cases num with
    | number num => exact bigintMod_isExact_iff self num
    | other => exact iff_of_true (.noNumber _) trivial

/-! `Smallint` and `Tinyint`. -/

section

variable {width : Nat}

theorem asInt_of_fits {n : Int} (fits : Fits 32 n) (rest : Int → Computed width) :
    asInt n rest = rest n :=
  if_pos fits

/-- The operands that are promoted are far from the ends of `int`. -/
theorem narrow_bounds (small : width ≤ 16) (bits : BitVec width) :
    -2 ^ 15 ≤ bits.toInt ∧ bits.toInt < 2 ^ 15 :=
  (fits_toInt bits).mono small

theorem fits_tdiv_narrow (small : width ≤ 16) (bits : BitVec width) (divisor : Int) :
    Fits 32 (bits.toInt.tdiv divisor) := by
  have bounds := narrow_bounds small bits
  have smaller := Int.natAbs_tdiv_le_natAbs bits.toInt divisor
  simp only [Fits]
  omega

variable (positive : 0 < width) (small : width ≤ 16)

include positive small

theorem narrowAdd_isExact (self num : BitVec width) :
    IsExact (narrowAdd self num) (.number (self.toInt + num.toInt)) := by
  have selfBounds := narrow_bounds small self
  have numBounds := narrow_bounds small num
  have resultBounds := narrow_bounds small (BitVec.ofInt width (self.toInt + num.toInt))
  rw [narrowAdd, asInt_of_fits (by simp only [Fits]; omega)]
  dsimp only
  rw [asInt_of_fits (by simp only [Fits]; omega)]
  apply isExact_checked positive
  rw [← toInt_ofInt_iff positive]
  omega

theorem narrowSub_isExact (self num : BitVec width) :
    IsExact (narrowSub self num) (.number (self.toInt - num.toInt)) := by
  have selfBounds := narrow_bounds small self
  have numBounds := narrow_bounds small num
  have resultBounds := narrow_bounds small (BitVec.ofInt width (self.toInt - num.toInt))
  rw [narrowSub, asInt_of_fits (by simp only [Fits]; omega)]
  dsimp only
  rw [asInt_of_fits (by simp only [Fits]; omega)]
  apply isExact_checked positive
  rw [← toInt_ofInt_iff positive]
  omega

theorem narrowMul_isExact (self num : BitVec width) :
    IsExact (narrowMul self num) (.number (self.toInt * num.toInt)) := by
  have selfBounds := narrow_bounds small self
  have numBounds := narrow_bounds small num
  have product : (self.toInt * num.toInt).natAbs ≤ 2 ^ 15 * 2 ^ 15 := by
    rw [Int.natAbs_mul]
    exact Nat.mul_le_mul (by omega) (by omega)
  rw [narrowMul, asInt_of_fits (by simp only [Fits]; omega)]
  dsimp only
  by_cases zero : num = 0
  · have none : num.toInt = 0 := toInt_eq_zero_iff.mpr zero
    rw [if_pos zero, none, Int.mul_zero]
    apply (isExact_value positive).mpr
    rw [← none]
    exact fits_toInt num
  · rw [if_neg zero, asInt_of_fits (fits_tdiv_narrow small _ _)]
    exact isExact_checked positive
      (tdiv_ofInt_mul_iff positive (fits_toInt num) (mt toInt_eq_zero_iff.mp zero))

theorem narrowDiv_isExact_iff (self num : BitVec width) :
    IsExact (narrowDiv self num) (FixedCall.expected self.toInt (.div (.number num))) ↔
      ¬ (self = BitVec.intMin width ∧ num.toInt = -1) := by
  rw [narrowDiv, FixedCall.expected, FixedCall.expectedOf]
  by_cases zero : num = 0
  · rw [if_pos zero, if_pos (toInt_eq_zero_iff.mpr zero)]
    exact iff_of_true (.divisorZero _) (by simp [zero])
  · have nonzero := mt toInt_eq_zero_iff.mp zero
    rw [if_neg zero, if_neg nonzero, asInt_of_fits (fits_tdiv_narrow small _ _),
      isExact_value positive, fits_tdiv_iff (fits_toInt self) nonzero, eq_intMin_iff positive]

theorem narrowMod_isExact (self num : BitVec width) :
    IsExact (narrowMod self num) (FixedCall.expected self.toInt (.mod (.number num))) := by
  rw [narrowMod, FixedCall.expected, FixedCall.expectedOf]
  by_cases zero : num = 0
  · rw [if_pos zero, if_pos (toInt_eq_zero_iff.mpr zero)]
    exact .divisorZero _
  · have rest := fits_tmod (fits_toInt self) num.toInt
    rw [if_neg zero, if_neg (mt toInt_eq_zero_iff.mp zero),
      asInt_of_fits (fits_tdiv_narrow small _ _),
      asInt_of_fits (rest.mono (by omega))]
    exact (isExact_value positive).mpr rest

theorem isExact_opposite {self : BitVec width} (other : self ≠ BitVec.intMin width) :
    IsExact (asInt (-self.toInt) fun opposite => .value (BitVec.ofInt width opposite))
      (.number (-self.toInt)) := by
  have bounds := narrow_bounds small self
  rw [asInt_of_fits (by simp only [Fits]; omega), isExact_value positive, fits_neg_iff positive]
  exact other

theorem narrowNeg_isExact (self : BitVec width) :
    IsExact (narrowNeg self) (.number (-self.toInt)) := by
  rw [narrowNeg]
  split
  · rename_i least
    rw [least]
    exact isExact_least positive _
  · rename_i other
    exact isExact_opposite positive small other

theorem narrowAbs_isExact (self : BitVec width) :
    IsExact (narrowAbs self) (.number self.toInt.natAbs) := by
  rw [narrowAbs, natAbs_toInt]
  split
  · rename_i least
    rw [if_pos (by rw [least]; exact toInt_intMin_neg positive), least]
    exact isExact_least positive _
  · rename_i other
    split
    · exact isExact_opposite positive small other
    · exact .number self

def narrowClass (width : Nat) (expected : String) : FixedClass width where
  expected := expected
  add := narrowAdd
  sub := narrowSub
  mul := narrowMul
  div := narrowDiv
  mod := narrowMod
  abs := narrowAbs
  neg := narrowNeg

theorem narrow_call_isExact_iff (expected : String) (self : BitVec width)
    (call : FixedCall width) :
    IsExact ((narrowClass width expected).call self call) (call.expected self.toInt) ↔
      call.NarrowSafe self := by
  cases call with
  | abs => exact iff_of_true (narrowAbs_isExact positive small self) trivial
  | neg => exact iff_of_true (narrowNeg_isExact positive small self) trivial
  | add num => cases num with
    | number num => exact iff_of_true (narrowAdd_isExact positive small self num) trivial
    | other => exact iff_of_true (.noNumber _) trivial
  | sub num => cases num with
    | number num => exact iff_of_true (narrowSub_isExact positive small self num) trivial
    | other => exact iff_of_true (.noNumber _) trivial
  | mul num => cases num with
    | number num => exact iff_of_true (narrowMul_isExact positive small self num) trivial
    | other => exact iff_of_true (.noNumber _) trivial
  | div num => cases num with
    | number num => exact narrowDiv_isExact_iff positive small self num
    | other => exact iff_of_true (.noNumber _) trivial
  | mod num => cases num with
    | number num => exact iff_of_true (narrowMod_isExact positive small self num) trivial
    | other => exact iff_of_true (.noNumber _) trivial

end

/-- `Bigint` is exact where nothing overflows, and the narrow classes are everywhere but at
the quotient of the least number by minus one. -/
theorem fixed_arithmetic_iff (bigint : BitVec 64) (bigintCall : FixedCall 64)
    (smallint : BitVec 16) (smallintCall : FixedCall 16) (tinyint : BitVec 8)
    (tinyintCall : FixedCall 8) :
    (IsExact (bigintClass.call bigint bigintCall) (bigintCall.expected bigint.toInt) ↔
        bigintCall.BigintSafe bigint) ∧
      (IsExact (smallintClass.call smallint smallintCall)
          (smallintCall.expected smallint.toInt) ↔
        smallintCall.NarrowSafe smallint) ∧
      (IsExact (tinyintClass.call tinyint tinyintCall) (tinyintCall.expected tinyint.toInt) ↔
        tinyintCall.NarrowSafe tinyint) := by
  refine ⟨bigint_call_isExact_iff bigint bigintCall, ?_, ?_⟩
  · exact narrow_call_isExact_iff (by decide) (by decide) smallintClass.expected smallint
      smallintCall
  · exact narrow_call_isExact_iff (by decide) (by decide) tinyintClass.expected tinyint
      tinyintCall

/-- A sum that overflows, and a quotient that is stored as the least number. -/
theorem arithmetic_not_exact :
    bigintClass.call (BitVec.ofInt 64 longMax) (.add (.number 1)) = .undefined ∧
    smallintClass.call (BitVec.intMin 16) (.div (.number (-1))) = .value (BitVec.intMin 16) ∧
    ¬ ((∀ self call, IsExact (bigintClass.call self call) (call.expected self.toInt)) ∧
      (∀ self call, IsExact (smallintClass.call self call) (call.expected self.toInt)) ∧
      ∀ self call, IsExact (tinyintClass.call self call) (call.expected self.toInt)) := by
  refine ⟨by decide +kernel, by decide +kernel, ?_⟩
  rintro ⟨bigint, _, _⟩
  have exact_ := bigint (BitVec.ofInt 64 longMax) (.add (.number 1))
  rw [(by decide +kernel : bigintClass.call (BitVec.ofInt 64 longMax) (.add (.number 1)) =
    .undefined)] at exact_
  exact not_isExact_undefined exact_

end PhpDriver
