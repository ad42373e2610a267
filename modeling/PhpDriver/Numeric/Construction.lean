import PhpDriver.Data.IeeeScaled
import PhpDriver.Util.IntegerExact

namespace PhpDriver

open Data

/-! The constructors of `Smallint.c` and `Tinyint.c`. -/

inductive ConstructionError where
  /-- The exception of class `RangeException`. -/
  | range (message : List UInt8)
  /-- The same for a double, which the message shows as `%g` does. -/
  | rangeDouble (bits : BitVec 64)
  | parse (error : NumberError)
  | invalidArgument (expected : String)
deriving DecidableEq

inductive NumericInput (width : Nat) where
  | long (number : BitVec 64)
  | double (bits : BitVec 64)
  | string (text : List UInt8)
  /-- An object of the same class, with its number. -/
  | numeric (number : BitVec width)
  | other

/-- The number the object has in the end, and the exception if one was thrown. -/
structure Initialized (width : Nat) where
  value : BitVec width
  error : Option ConstructionError
deriving DecidableEq

section

variable {width : Nat}

def rangeMessage (width : Nat) (given : List UInt8) : List UInt8 :=
  ascii "value must be between " ++ DecimalText.ofInt (-2 ^ (width - 1)) ++ ascii " and " ++
    DecimalText.ofInt (2 ^ (width - 1) - 1) ++ ascii ", " ++ given ++ ascii " given"

def truncated (bits : BitVec 64) : Int :=
  let units := Ieee.units 52 bits / Ieee.one 64 52
  if bits.msb then -(units : Int) else units

def storeNarrow (self : BitVec width) (number : Int) (error : ConstructionError) :
    Initialized width :=
  if Fits width number then { value := BitVec.ofInt width number, error := none }
  else { value := self, error := some error }

/-- `none` is undefined behaviour. -/
def narrowInit (expected : String) (self : BitVec width) :
    NumericInput width → Option (Initialized width)
  | .numeric number => some { value := number, error := none }
  | .long number =>
      let message := rangeMessage width (DecimalText.ofInt number.toInt)
      some (storeNarrow self (wrapInt number.toInt) (.range message))
  | .double bits =>
      if Ieee.isFinite 52 bits ∧ Fits 32 (truncated bits) then
        some (storeNarrow self (truncated bits) (.rangeDouble bits))
      else none
  | .string text =>
      let message := rangeMessage width (cString text)
      match parseInt text (wrapInt text.length) with
      -- `errno` is still set, and a second exception takes the place of the first
      | .error .range => some { value := self, error := some (.range message) }
      | .error error => some { value := self, error := some (.parse error) }
      | .ok number => some (storeNarrow self number (.range message))
  | .other => some { value := self, error := some (.invalidArgument expected) }

end

def smallintInit : BitVec 16 → NumericInput 16 → Option (Initialized 16) :=
  narrowInit "a long, a double, a numeric string or a Cassandra\\Smallint"

/-- The backslash is no escape of the C string, and gets lost. -/
def tinyintInit : BitVec 8 → NumericInput 8 → Option (Initialized 8) :=
  narrowInit "a long, a double, a numeric string or a CassandraTinyint"

/-! Decimal strings, and what the constructors should do with a number. -/

/-- A leading zero announces an octal number, unless it is alone. -/
def IsDecimal (text : List UInt8) (n : Int) : Prop :=
  ∃ (sign : Numeral.Sign) (digits : List UInt8), text = sign.text ++ digits ∧
    Numeral.IsNumeral 10 digits ∧ (digits.head? = some '0'.toUInt8 → digits = ['0'.toUInt8]) ∧
    n = DecimalText.signed sign.negative (Numeral.value 10 digits)

section

variable {width : Nat}

/-- The number is stored, or a range exception leaves the object as it was. -/
inductive RangeExact (self : BitVec width) (n : Int) : Option (Initialized width) → Prop
  | stored (fits : Fits width n) :
      RangeExact self n (some { value := BitVec.ofInt width n, error := none })
  | refused (outside : ¬ Fits width n) (message : List UInt8) :
      RangeExact self n (some { value := self, error := some (.range message) })

/-- The two end with the same number, and both or none of them with a range exception. -/
def Alike (one other : Option (Initialized width)) : Prop :=
  ∃ left right, one = some left ∧ other = some right ∧ left.value = right.value ∧
    (left.error = none ∧ right.error = none ∨
      ∃ message shown, left.error = some (.range message) ∧ right.error = some (.range shown))

theorem storeNarrow_exact_iff {self : BitVec width} {n number : Int} {message : List UInt8}
    (keeps : Fits width n → number = n) :
    RangeExact self n (some (storeNarrow self number (.range message))) ↔
      Fits width n ∨ ¬ Fits width number := by
  rw [storeNarrow]
  constructor
  · intro exact_
    by_cases fits : Fits width number
    · rw [if_pos fits] at exact_
      generalize stored : some (Initialized.mk (BitVec.ofInt width number) none) = result at exact_
      cases exact_ with
      | stored inRange => exact Or.inl inRange
      | refused => cases stored
    · exact Or.inr fits
  · intro known
    by_cases inRange : Fits width n
    · rw [keeps inRange, if_pos inRange]
      exact .stored inRange
    · rw [if_neg (known.resolve_left inRange)]
      exact .refused inRange message

theorem long_exact_iff (narrow : width ≤ 32) (expected : String) (self : BitVec width)
    (number : BitVec 64) :
    RangeExact self number.toInt (narrowInit expected self (.long number)) ↔
      Fits width number.toInt ∨ ¬ Fits width (wrapInt number.toInt) := by
  apply storeNarrow_exact_iff
  intro fits
  obtain ⟨low, high⟩ := fits.mono narrow
  apply wrapInt_of_range
  · exact low
  · exact Int.le_of_lt_add_one high

theorem IsDecimal.magnitude {digits : List UInt8} (numeral : Numeral.IsNumeral 10 digits)
    (alone : digits.head? = some '0'.toUInt8 → digits = ['0'.toUInt8]) :
    Numeral.Magnitude literalBases digits (Numeral.value 10 digits) := by
  by_cases zero : digits.head? = some '0'.toUInt8
  · rw [alone zero]
    exact @Numeral.Magnitude.octal literalBases [] (by simp)
  · exact .decimal numeral zero

theorem length_decimal_le {digits : List UInt8} (numeral : Numeral.IsNumeral 10 digits)
    (alone : digits.head? = some '0'.toUInt8 → digits = ['0'.toUInt8])
    (small : Numeral.value 10 digits < 2 ^ 64) : digits.length ≤ 20 := by
  obtain ⟨nonempty, all⟩ := Numeral.isNumeral_ten_iff.mp numeral
  rw [Numeral.value_ten all] at small
  have plain : 1 < digits.length → digits.head? ≠ some (DecimalText.digitChar 0) := by
    intro long zero
    rw [alone zero] at long
    exact absurd long (by decide)
  rw [← DecimalText.ofNat_toNat all nonempty plain]
  apply (DecimalText.length_ofNat_le_iff (by decide)).mpr
  exact Nat.lt_trans small (by decide)

theorem signed_mod (negative : Bool) (magnitude : Nat) :
    DecimalText.signed negative (magnitude % 2 ^ 32) =
      (DecimalText.signed negative magnitude).tmod (2 ^ 32) := by
  cases negative with
  | true =>
      simp only [DecimalText.signed, if_true, Int.neg_tmod]
      rfl
  | false => rfl

/-- The integer parser reads a decimal string modulo 2 ^ 32, towards zero. -/
theorem parseInt_decimal {text : List UInt8} {n : Int} (decimal : IsDecimal text n) :
    parseInt text (wrapInt text.length) =
      if 2 ^ 64 ≤ n.natAbs ∨ ¬ Fits 32 (n.tmod (2 ^ 32)) then .error .range
      else .ok (n.tmod (2 ^ 32)) := by
  obtain ⟨sign, digits, rfl, numeral, alone, rfl⟩ := decimal
  have reads := IsDecimal.magnitude numeral alone
  rw [parseInt, parseFixed_of_magnitude 32 reads, DecimalText.natAbs_signed, ← signed_mod]
  simp only [fits_signed_iff, Nat.not_le]
  split
  · rfl
  · rename_i small
    have length := length_decimal_le numeral alone (by omega)
    have sign_ : sign.text.length ≤ 1 := by cases sign <;> decide
    rw [if_neg]
    rw [not_not]
    apply length_eq_wrapInt_iff.mpr
    rw [List.length_append, intMax]
    omega

theorem tmod_of_fits {n : Int} (fits : Fits 32 n) : n.tmod (2 ^ 32) = n := by
  obtain ⟨low, high⟩ := fits
  rcases Int.le_total 0 n with nonneg | nonpos
  · exact Int.tmod_eq_of_lt nonneg (by omega)
  · rw [← Int.neg_neg n, Int.neg_tmod, Int.tmod_eq_of_lt (by omega) (by omega)]

theorem narrowInit_decimal (expected : String) (self : BitVec width) {text : List UInt8} {n : Int}
    (decimal : IsDecimal text n) :
    narrowInit expected self (.string text) =
      let message := rangeMessage width (cString text)
      if 2 ^ 64 ≤ n.natAbs ∨ ¬ Fits 32 (n.tmod (2 ^ 32)) then
        some { value := self, error := some (.range message) }
      else some (storeNarrow self (n.tmod (2 ^ 32)) (.range message)) := by
  by_cases outside : 2 ^ 64 ≤ n.natAbs ∨ ¬ Fits 32 (n.tmod (2 ^ 32))
  · simp only [narrowInit, parseInt_decimal decimal, if_pos outside]
  · simp only [narrowInit, parseInt_decimal decimal, if_neg outside]

theorem decimal_exact_iff (narrow : width ≤ 32) (expected : String) (self : BitVec width)
    {text : List UInt8} {n : Int} (decimal : IsDecimal text n) :
    RangeExact self n (narrowInit expected self (.string text)) ↔
      Fits width n ∨ 2 ^ 64 ≤ n.natAbs ∨ ¬ Fits width (n.tmod (2 ^ 32)) := by
  rw [narrowInit_decimal expected self decimal]
  dsimp only
  split
  · rename_i outside
    have refused : ¬ Fits width n := by
      intro fits
      have wide := fits.mono narrow
      rw [tmod_of_fits wide] at outside
      obtain ⟨low, high⟩ := wide
      exact outside.elim (fun large => by omega) fun other => other ⟨low, high⟩
    refine iff_of_true (.refused refused _) (Or.inr ?_)
    exact outside.imp_right fun other fits => other (fits.mono narrow)
  · rename_i inside
    rw [not_or] at inside
    rw [storeNarrow_exact_iff fun fits => tmod_of_fits (fits.mono narrow),
      or_iff_right inside.1]

theorem wrapInt_eq_tmod {n : Int} (fits : Fits 32 (n.tmod (2 ^ 32))) :
    wrapInt n = n.tmod (2 ^ 32) := by
  obtain ⟨low, high⟩ := fits
  have rest : (n.tmod (2 ^ 32)).bmod (2 ^ 32) = n.tmod (2 ^ 32) :=
    Int.bmod_eq_of_le (by omega) (by omega)
  have whole := Int.tmod_add_mul_tdiv n (2 ^ 32)
  rw [← rest, wrapInt]
  conv_lhs => rw [← whole]
  exact Int.add_mul_bmod_self_left ..

theorem alike_iff (narrow : width ≤ 32) (expected : String) (self : BitVec width)
    {number : BitVec 64} {text : List UInt8} (decimal : IsDecimal text number.toInt) :
    Alike (narrowInit expected self (.long number)) (narrowInit expected self (.string text)) ↔
      (Fits width (wrapInt number.toInt) → Fits width (number.toInt.tmod (2 ^ 32))) := by
  have small : ¬ 2 ^ 64 ≤ number.toInt.natAbs := by
    have low := BitVec.le_toInt number
    have high := BitVec.toInt_lt (x := number)
    omega
  rw [narrowInit_decimal expected self decimal]
  simp only [narrowInit, small, false_or, storeNarrow]
  constructor
  · rintro ⟨left, right, longResult, stringResult, _, errors⟩ fits
    rw [if_pos fits] at longResult
    obtain rfl := Option.some.inj longResult
    have noError := (errors.resolve_right fun ⟨_, _, error, _⟩ => by cases error).2
    split at stringResult
    · obtain rfl := Option.some.inj stringResult
      cases noError
    · split at stringResult
      · assumption
      · obtain rfl := Option.some.inj stringResult
        cases noError
  · intro same
    by_cases fits : Fits width (number.toInt.tmod (2 ^ 32))
    · have wide := fits.mono narrow
      simp only [if_neg (not_not_intro wide), wrapInt_eq_tmod wide, if_pos fits]
      exact ⟨_, _, rfl, rfl, rfl, Or.inl ⟨rfl, rfl⟩⟩
    · simp only [if_neg fun other => fits (same other), if_neg fits, ite_self]
      exact ⟨_, _, rfl, rfl, rfl, Or.inr ⟨_, _, rfl, rfl⟩⟩

end

/-- Each constructor is exact if its argument is in the range, or if what is left of it after
the narrowing is not in the range either. -/
theorem narrow_constructors_exact_iff {text : List UInt8} {n : Int} (decimal : IsDecimal text n)
    (number : BitVec 64) (small : BitVec 16) (tiny : BitVec 8) :
    (RangeExact small number.toInt (smallintInit small (.long number)) ↔
        Fits 16 number.toInt ∨ ¬ Fits 16 (wrapInt number.toInt)) ∧
      (RangeExact tiny number.toInt (tinyintInit tiny (.long number)) ↔
        Fits 8 number.toInt ∨ ¬ Fits 8 (wrapInt number.toInt)) ∧
      (RangeExact small n (smallintInit small (.string text)) ↔
        Fits 16 n ∨ 2 ^ 64 ≤ n.natAbs ∨ ¬ Fits 16 (n.tmod (2 ^ 32))) ∧
      (RangeExact tiny n (tinyintInit tiny (.string text)) ↔
        Fits 8 n ∨ 2 ^ 64 ≤ n.natAbs ∨ ¬ Fits 8 (n.tmod (2 ^ 32))) ∧
      (n = number.toInt →
        (Alike (smallintInit small (.long number)) (smallintInit small (.string text)) ↔
            (Fits 16 (wrapInt n) → Fits 16 (n.tmod (2 ^ 32)))) ∧
          (Alike (tinyintInit tiny (.long number)) (tinyintInit tiny (.string text)) ↔
            (Fits 8 (wrapInt n) → Fits 8 (n.tmod (2 ^ 32))))) := by
  refine ⟨long_exact_iff (by decide) _ small number, long_exact_iff (by decide) _ tiny number,
    decimal_exact_iff (by decide) _ small decimal, decimal_exact_iff (by decide) _ tiny decimal, ?_⟩
  rintro rfl
  exact ⟨alike_iff (by decide) _ small decimal, alike_iff (by decide) _ tiny decimal⟩

theorem minus_seven_is_decimal : IsDecimal (ascii "-7") (-7) :=
  ⟨.minus, ascii "7", rfl, ⟨by decide, by decide +kernel⟩, by decide, rfl⟩

/-- Both forms of -7 are stored. -/
theorem minus_seven_is_stored :
    Alike (smallintInit 0 (.long (-7))) (smallintInit 0 (.string (ascii "-7"))) :=
  ((narrow_constructors_exact_iff minus_seven_is_decimal (-7) 0 0).2.2.2.2 rfl).1.mpr
    (by decide)

/-- The number 2 ^ 32 is stored as zero from both forms, 2 ^ 32 - 1 as -1 from the integer only. -/
theorem constructors_not_exact :
    ¬ RangeExact 0 4294967296 (smallintInit 0 (.long 4294967296)) ∧
      ¬ RangeExact 0 4294967296 (tinyintInit 0 (.string (ascii "4294967296"))) ∧
      ¬ Alike (smallintInit 0 (.long 4294967295))
        (smallintInit 0 (.string (ascii "4294967295"))) := by
  have first : IsDecimal (ascii "4294967296") 4294967296 :=
    ⟨.none, ascii "4294967296", rfl, ⟨by decide, by decide +kernel⟩, by decide, rfl⟩
  have second : IsDecimal (ascii "4294967295") ((4294967295 : BitVec 64)).toInt :=
    ⟨.none, ascii "4294967295", rfl, ⟨by decide, by decide +kernel⟩, by decide, rfl⟩
  refine ⟨fun exact_ => ?_, fun exact_ => ?_, fun alike => ?_⟩
  · exact absurd ((long_exact_iff (by decide) _ 0 4294967296).mp exact_) (by decide)
  · exact absurd ((decimal_exact_iff (by decide) _ 0 first).mp exact_) (by decide)
  · exact absurd ((alike_iff (by decide) _ 0 second).mp alike) (by decide)

def boundAsDouble (bound : Int) : Int :=
  if bound < 0 then -(Ieee.roundEven 53 bound.natAbs : Int) else Ieee.roundEven 53 bound.natAbs

def doubleUnits (bits : BitVec 64) : Int :=
  if bits.msb then -(Ieee.units 52 bits : Int) else Ieee.units 52 bits

def doubleOutside (min max : Int) (bits : BitVec 64) : Bool :=
  !Ieee.isNan 52 bits &&
    (boundAsDouble max * Ieee.one 64 52 < doubleUnits bits ||
      doubleUnits bits < boundAsDouble min * Ieee.one 64 52)

/-- The truncation of a double between two bounds is between them. -/
theorem truncated_bounds {min max : Int} {bits : BitVec 64} (low : boundAsDouble min ≤ 0)
    (high : 0 ≤ boundAsDouble max) (inside : doubleOutside min max bits = false)
    (finite : Ieee.isFinite 52 bits = true) :
    boundAsDouble min ≤ truncated bits ∧ truncated bits ≤ boundAsDouble max := by
  have number : Ieee.isNan 52 bits = false := by
    simp only [Ieee.isFinite, Ieee.isNan, decide_eq_true_eq, decide_eq_false_iff_not] at *
    omega
  simp only [doubleOutside, number, Bool.not_false, Bool.true_and, Bool.or_eq_false_iff] at inside
  have one_pos : 0 < Ieee.one 64 52 := by
    rw [Ieee.one]
    positivity
  rw [truncated]
  rw [doubleUnits] at inside
  generalize Ieee.one 64 52 = one at *
  have one_pos : (0 : Int) < one := Int.natCast_pos.mpr one_pos
  have divided : ((Ieee.units 52 bits / one : Nat) : Int) * one ≤ Ieee.units 52 bits := by
    exact_mod_cast Nat.div_mul_le_self _ _
  have above := Int.not_lt.mp (of_decide_eq_false inside.1)
  have below := Int.not_lt.mp (of_decide_eq_false inside.2)
  generalize Ieee.units 52 bits / one = quotient at *
  split
  · rename_i negative
    rw [if_pos negative] at below
    have scaled : (quotient : Int) * one ≤ -boundAsDouble min * one := by
      rw [Int.neg_mul]
      exact Int.le_trans divided (Int.le_neg_of_le_neg below)
    have magnitude := Int.le_of_mul_le_mul_right scaled one_pos
    constructor <;> omega
  · rename_i nonneg
    rw [if_neg nonneg] at above
    have magnitude := Int.le_of_mul_le_mul_right (Int.le_trans divided above) one_pos
    constructor <;> omega

end PhpDriver
