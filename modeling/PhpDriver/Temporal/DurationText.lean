import PhpDriver.Data.FixedWidth
import PhpDriver.Util.DecimalGrammar

namespace PhpDriver

open Data DecimalGrammar

/-! `php_driver_duration_to_string` of `Duration.c`. -/

structure Duration where
  months : BitVec 32
  days : BitVec 32
  nanos : BitVec 64
deriving DecidableEq

/-- A negative number is replaced by its opposite in its own type, where the least number has
none. -/
def finalMagnitude {width : Nat} (bits : BitVec width) : Option (BitVec width) :=
  if bits.toInt < 0 then
    if bits = BitVec.intMin width then none else some (-bits)
  else some bits

namespace Duration

def isNegative (duration : Duration) : Bool :=
  duration.months.toInt < 0 || duration.days.toInt < 0 || duration.nanos.toInt < 0

/-- The format `"%s%dmo%dd%lldns"`. -/
def format (isNegative : Bool) (months days nanos : Int) : List UInt8 :=
  DecimalText.sign isNegative ++ (DecimalText.ofInt months ++ (ascii "mo" ++
    (DecimalText.ofInt days ++ (ascii "d" ++ (DecimalText.ofInt nanos ++ ascii "ns")))))

/-- `none` is undefined behaviour. -/
def toString (duration : Duration) : Option (List UInt8) := do
  let finalMonths ← finalMagnitude duration.months
  let finalDays ← finalMagnitude duration.days
  let finalNanos ← finalMagnitude duration.nanos
  some (format duration.isNegative finalMonths.toInt finalDays.toInt finalNanos.toInt)

def OneSign (duration : Duration) : Prop :=
  (duration.months.toInt ≤ 0 ∧ duration.days.toInt ≤ 0 ∧ duration.nanos.toInt ≤ 0) ∨
    (0 ≤ duration.months.toInt ∧ 0 ≤ duration.days.toInt ∧ 0 ≤ duration.nanos.toInt)

instance (duration : Duration) : Decidable duration.OneSign :=
  inferInstanceAs (Decidable (_ ∨ _))

def exactText (duration : Duration) : List UInt8 :=
  format duration.isNegative duration.months.toInt.natAbs duration.days.toInt.natAbs
    duration.nanos.toInt.natAbs

structure NoLeast (duration : Duration) : Prop where
  months : duration.months ≠ BitVec.intMin 32
  days : duration.days ≠ BitVec.intMin 32
  nanos : duration.nanos ≠ BitVec.intMin 64

end Duration

theorem finalMagnitude_eq_some_iff {width : Nat} (positive : 0 < width)
    {bits magnitude : BitVec width} :
    finalMagnitude bits = some magnitude ↔
      bits ≠ BitVec.intMin width ∧ magnitude.toInt = bits.toInt.natAbs := by
  rw [finalMagnitude, natAbs_toInt]
  split
  · split
    · rename_i least
      exact iff_of_false (by simp) fun ⟨other, _⟩ => other least
    · rename_i other
      rw [Option.some.injEq, ← BitVec.toInt_neg_of_ne_intMin other, BitVec.toInt_inj, eq_comm]
      exact (and_iff_right other).symm
  · rename_i nonneg
    have other : bits ≠ BitVec.intMin width := by
      intro least
      rw [least] at nonneg
      exact nonneg (toInt_intMin_neg positive)
    rw [Option.some.injEq, BitVec.toInt_inj, eq_comm]
    exact (and_iff_right other).symm

theorem exists_finalMagnitude {width : Nat} (positive : 0 < width) {bits : BitVec width}
    (other : bits ≠ BitVec.intMin width) :
    ∃ magnitude, finalMagnitude bits = some magnitude ∧
      magnitude.toInt = bits.toInt.natAbs := by
  have known := @finalMagnitude_eq_some_iff width positive bits
  cases stored : finalMagnitude bits with
  | some magnitude => exact ⟨magnitude, rfl, (known.mp stored).2⟩
  | none =>
      rw [finalMagnitude, if_neg other] at stored
      split at stored <;> cases stored

namespace Duration

variable {duration other : Duration}

theorem toString_eq_some_iff {text : List UInt8} :
    duration.toString = some text ↔ duration.NoLeast ∧ duration.exactText = text := by
  simp only [toString, Option.bind_eq_bind, Option.bind_eq_some_iff]
  constructor
  · intro printed
    obtain ⟨months, finalMonths, days, finalDays, nanos, finalNanos, same⟩ := printed
    rw [finalMagnitude_eq_some_iff (by decide)] at finalMonths finalDays finalNanos
    rw [finalMonths.2, finalDays.2, finalNanos.2] at same
    exact ⟨⟨finalMonths.1, finalDays.1, finalNanos.1⟩, Option.some.inj same⟩
  · intro printed
    obtain ⟨noLeast, same⟩ := printed
    obtain ⟨months, finalMonths, isMonths⟩ := exists_finalMagnitude (by decide) noLeast.months
    obtain ⟨days, finalDays, isDays⟩ := exists_finalMagnitude (by decide) noLeast.days
    obtain ⟨nanos, finalNanos, isNanos⟩ := exists_finalMagnitude (by decide) noLeast.nanos
    refine ⟨months, finalMonths, days, finalDays, nanos, finalNanos, ?_⟩
    rw [isMonths, isDays, isNanos]
    exact congrArg some same

theorem ofInt_natCast (n : Nat) : DecimalText.ofInt n = DecimalText.ofNat n := by
  rw [DecimalText.ofInt, decide_eq_false (by omega)]
  rfl

theorem number_unit_inj (unit : List UInt8) (letter : unit.head?.map DecimalText.isDigit = some false)
    {left right : Nat} {leftTail rightTail : List UInt8}
    (same : DecimalText.ofInt left ++ (unit ++ leftTail) =
      DecimalText.ofInt right ++ (unit ++ rightTail)) : left = right ∧ leftTail = rightTail := by
  have stop (tail : List UInt8) (char : UInt8) (head : (unit ++ tail).head? = some char) :
      DecimalText.isDigit char = false := by
    cases unit with
    | nil => cases letter
    | cons first rest =>
        cases head
        exact Option.some.inj letter
  rw [ofInt_natCast, ofInt_natCast] at same
  obtain ⟨numbers, tails⟩ := digits_append_inj (DecimalText.allDigits_ofNat left)
    (DecimalText.allDigits_ofNat right) (stop leftTail) (stop rightTail) same
  exact ⟨DecimalText.ofNat_inj.mp numbers, List.append_cancel_left tails⟩

theorem sign_inj {left right : Bool} {leftNumber rightNumber : Nat}
    {leftTail rightTail : List UInt8}
    (same : DecimalText.sign left ++ (DecimalText.ofInt leftNumber ++ leftTail) =
      DecimalText.sign right ++ (DecimalText.ofInt rightNumber ++ rightTail)) :
    left = right ∧ DecimalText.ofInt leftNumber ++ leftTail =
      DecimalText.ofInt rightNumber ++ rightTail := by
  have plain (number : Nat) (tail rest : List UInt8) :
      DecimalText.ofInt number ++ tail ≠ DecimalText.sign true ++ rest := by
    intro minus
    rw [ofInt_natCast] at minus
    cases digits : DecimalText.ofNat number with
    | nil => exact DecimalText.ofNat_ne_nil number digits
    | cons first _ =>
        rw [digits] at minus
        have head : first = '-'.toUInt8 := (List.cons.inj minus).1
        have digit := DecimalText.allDigits_ofNat number first (by simp [digits])
        rw [head] at digit
        exact absurd digit (by decide)
  cases left with
  | true =>
      cases right with
      | true => exact ⟨rfl, List.append_cancel_left same⟩
      | false => exact absurd same.symm (plain _ _ _)
  | false =>
      cases right with
      | true => exact absurd same (plain _ _ _)
      | false => exact ⟨rfl, same⟩

theorem OneSign.toInt_eq (oneSign : duration.OneSign) :
    duration.months.toInt = DecimalText.signed duration.isNegative duration.months.toInt.natAbs ∧
      duration.days.toInt = DecimalText.signed duration.isNegative duration.days.toInt.natAbs ∧
      duration.nanos.toInt =
        DecimalText.signed duration.isNegative duration.nanos.toInt.natAbs := by
  simp only [DecimalText.signed, isNegative, Bool.or_eq_true, decide_eq_true_eq]
  simp only [OneSign] at oneSign
  split <;> omega

theorem exactText_inj (oneSign : duration.OneSign) (otherSign : other.OneSign)
    (same : duration.exactText = other.exactText) : duration = other := by
  obtain ⟨sign, same⟩ := sign_inj same
  obtain ⟨months, same⟩ := number_unit_inj (ascii "mo") (by decide) same
  obtain ⟨days, same⟩ := number_unit_inj (ascii "d") (by decide) same
  have last (nanos : Nat) : DecimalText.ofInt nanos ++ ascii "ns" =
      DecimalText.ofInt nanos ++ (ascii "ns" ++ []) := by rw [List.append_nil]
  rw [last, last] at same
  obtain ⟨nanos, _⟩ := number_unit_inj (ascii "ns") (by decide) same
  obtain ⟨isMonths, isDays, isNanos⟩ := oneSign.toInt_eq
  obtain ⟨otherMonths, otherDays, otherNanos⟩ := otherSign.toInt_eq
  rw [sign, months, ← otherMonths, BitVec.toInt_inj] at isMonths
  rw [sign, days, ← otherDays, BitVec.toInt_inj] at isDays
  rw [sign, nanos, ← otherNanos, BitVec.toInt_inj] at isNanos
  cases duration
  cases other
  simp only at isMonths isDays isNanos
  rw [isMonths, isDays, isNanos]

end Duration

/-- The text is exact unless a component is the least of its type, and two durations that are
printed alike are equal. -/
theorem duration_text_exact_iff {duration other : Duration} (oneSign : duration.OneSign)
    (otherSign : other.OneSign) :
    (duration.toString = some duration.exactText ↔ duration.NoLeast) ∧
      ∀ text, duration.toString = some text → other.toString = some text → duration = other := by
  constructor
  · rw [Duration.toString_eq_some_iff]
    exact and_iff_left rfl
  · intro text printed otherPrinted
    have same := (Duration.toString_eq_some_iff.mp printed).2
    have otherSame := (Duration.toString_eq_some_iff.mp otherPrinted).2
    exact Duration.exactText_inj oneSign otherSign (same.trans otherSame.symm)

/-- Minus three months and a day. -/
theorem three_months_are_printed :
    (Duration.toString ⟨-3, -1, 0⟩ = some (Duration.exactText ⟨-3, -1, 0⟩) ↔
      Duration.NoLeast ⟨-3, -1, 0⟩) ∧
      ∀ text, Duration.toString ⟨-3, -1, 0⟩ = some text →
        Duration.toString ⟨0, -1, 0⟩ = some text →
          (⟨-3, -1, 0⟩ : Duration) = ⟨0, -1, 0⟩ :=
  duration_text_exact_iff (by decide) (by decide)

/-- The least number of months has no opposite in its type. -/
theorem least_duration_not_exact :
    Duration.OneSign ⟨BitVec.intMin 32, 0, 0⟩ ∧
      Duration.toString ⟨BitVec.intMin 32, 0, 0⟩ = none ∧
      ¬ ∀ duration : Duration, duration.OneSign →
        duration.toString = some duration.exactText := by
  refine ⟨by decide, by decide, ?_⟩
  intro exact_
  have printed := exact_ ⟨BitVec.intMin 32, 0, 0⟩ (by decide)
  exact (Duration.toString_eq_some_iff.mp printed).1.months rfl

end PhpDriver
