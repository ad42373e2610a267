import Mathlib.Data.Nat.Digits.Lemmas
import Mathlib.Tactic.Linarith
import Mathlib.Tactic.Ring

namespace PhpDriver.Data.DecimalText

/-! Decimal digit strings in ASCII: the number a string denotes, and the digits
of a number without leading zeros. -/

def isDigit (char : UInt8) : Bool :=
  48 ≤ char.toNat && char.toNat ≤ 57

def digitValue (char : UInt8) : Nat :=
  char.toNat - 48

def digitChar (digit : Nat) : UInt8 :=
  UInt8.ofNat (48 + digit)

def AllDigits (text : List UInt8) : Prop :=
  ∀ char ∈ text, isDigit char = true

instance : DecidablePred AllDigits := fun text =>
  inferInstanceAs (Decidable (∀ char ∈ text, isDigit char = true))

def toNat (text : List UInt8) : Nat :=
  Nat.ofDigits 10 (text.reverse.map digitValue)

def ofNat (n : Nat) : List UInt8 :=
  if n = 0 then [digitChar 0] else ((Nat.digits 10 n).map digitChar).reverse

def sign (negative : Bool) : List UInt8 :=
  if negative then ['-'.toUInt8] else []

def ofInt (n : Int) : List UInt8 :=
  sign (n < 0) ++ ofNat n.natAbs

def signed (negative : Bool) (magnitude : Nat) : Int :=
  if negative then -magnitude else magnitude

theorem digitChar_toNat {digit : Nat} (bound : digit < 10) :
    (digitChar digit).toNat = 48 + digit := by
  simp only [digitChar, UInt8.toNat_ofNat']
  omega

theorem digitValue_digitChar {digit : Nat} (bound : digit < 10) :
    digitValue (digitChar digit) = digit := by
  rw [digitValue, digitChar_toNat bound]
  omega

theorem isDigit_digitChar {digit : Nat} (bound : digit < 10) :
    isDigit (digitChar digit) = true := by
  rw [isDigit, digitChar_toNat bound]
  simp
  omega

theorem digitValue_lt {char : UInt8} (digit : isDigit char = true) :
    digitValue char < 10 := by
  simp only [isDigit, Bool.and_eq_true, decide_eq_true_eq] at digit
  simp only [digitValue]
  omega

@[simp] theorem toNat_nil : toNat [] = 0 := rfl

theorem toNat_append (left right : List UInt8) :
    toNat (left ++ right) = toNat left * 10 ^ right.length + toNat right := by
  simp only [toNat, List.reverse_append, List.map_append, Nat.ofDigits_append,
    List.length_map, List.length_reverse]
  ring

theorem toNat_cons (char : UInt8) (rest : List UInt8) :
    toNat (char :: rest) = digitValue char * 10 ^ rest.length + toNat rest := by
  have append := toNat_append [char] rest
  simpa [toNat, Nat.ofDigits] using append

@[simp] theorem toNat_replicate_zero_append (count : Nat) (rest : List UInt8) :
    toNat (List.replicate count (digitChar 0) ++ rest) = toNat rest := by
  induction count with
  | zero => rfl
  | succ count ih =>
      rw [List.replicate_succ, List.cons_append, toNat_cons, ih,
        digitValue_digitChar (by decide)]
      omega

theorem toNat_lt {text : List UInt8} (digits : AllDigits text) :
    toNat text < 10 ^ text.length := by
  have bound := Nat.ofDigits_lt_base_pow_length
    (b := 10) (l := text.reverse.map digitValue) (by decide) (by
      intro digit member
      obtain ⟨char, charMember, rfl⟩ := List.mem_map.mp member
      exact digitValue_lt (digits char (List.mem_reverse.mp charMember)))
  simpa [toNat] using bound

private theorem map_digitValue_digitChar {digits : List Nat}
    (bound : ∀ digit ∈ digits, digit < 10) :
    (digits.map digitChar).map digitValue = digits := by
  rw [List.map_map]
  refine (List.map_congr_left fun digit member => ?_).trans (List.map_id digits)
  exact digitValue_digitChar (bound digit member)

@[simp] theorem toNat_ofNat (n : Nat) : toNat (ofNat n) = n := by
  by_cases zero : n = 0
  · subst zero
    rfl
  · simp only [toNat, ofNat, zero, if_false, List.reverse_reverse]
    rw [map_digitValue_digitChar fun digit member =>
      Nat.digits_lt_base (by decide) member]
    exact Nat.ofDigits_digits 10 n

theorem allDigits_ofNat (n : Nat) : AllDigits (ofNat n) := by
  intro char member
  by_cases zero : n = 0
  · subst zero
    obtain rfl : char = digitChar 0 := by simpa [ofNat] using member
    rfl
  · simp only [ofNat, zero, if_false, List.mem_reverse, List.mem_map] at member
    obtain ⟨digit, digitMember, rfl⟩ := member
    exact isDigit_digitChar (Nat.digits_lt_base (by decide) digitMember)

theorem ofNat_ne_nil (n : Nat) : ofNat n ≠ [] := by
  by_cases zero : n = 0
  · simp [ofNat, zero]
  · simp [ofNat, zero, Nat.digits_ne_nil_iff_ne_zero]

theorem length_ofNat_le_iff {n k : Nat} (positive : 0 < k) :
    (ofNat n).length ≤ k ↔ n < 10 ^ k := by
  by_cases zero : n = 0
  · have : 0 < 10 ^ k := by positivity
    simp only [ofNat, zero, if_true, List.length_singleton]
    omega
  · simp only [ofNat, zero, if_false, List.length_reverse, List.length_map]
    exact Nat.digits_length_le_iff (by decide) n

theorem length_ofNat_pos (n : Nat) : 0 < (ofNat n).length :=
  List.length_pos_iff.mpr (ofNat_ne_nil n)

theorem lt_pow_length_ofNat (n : Nat) : n < 10 ^ (ofNat n).length :=
  (length_ofNat_le_iff (length_ofNat_pos n)).mp (Nat.le_refl _)

theorem head?_ofNat_ne_zero {n : Nat} (nonzero : n ≠ 0) :
    (ofNat n).head? ≠ some (digitChar 0) := by
  intro head
  cases equation : ofNat n with
  | nil => exact ofNat_ne_nil n equation
  | cons char rest =>
      rw [equation] at head
      obtain rfl : char = digitChar 0 := by simpa using head
      have value : n = toNat rest := by
        have zeros := toNat_replicate_zero_append 1 rest
        rw [← toNat_ofNat n, equation]
        simpa using zeros
      have digits : AllDigits rest := fun other member =>
        allDigits_ofNat n other (by rw [equation]; exact List.mem_cons_of_mem _ member)
      have restValue := toNat_lt digits
      rw [← value] at restValue
      by_cases empty : rest = []
      · subst empty
        exact nonzero value
      · have short := (length_ofNat_le_iff (List.length_pos_iff.mpr empty)).mpr restValue
        rw [equation] at short
        simp at short

theorem digitChar_digitValue {char : UInt8} (digit : isDigit char = true) :
    digitChar (digitValue char) = char := by
  simp only [isDigit, Bool.and_eq_true, decide_eq_true_eq] at digit
  apply UInt8.toNat_inj.mp
  rw [digitChar_toNat (by rw [digitValue]; omega), digitValue]
  omega

theorem ofNat_toNat {text : List UInt8} (digits : AllDigits text) (nonempty : text ≠ [])
    (plain : 1 < text.length → text.head? ≠ some (digitChar 0)) : ofNat (toNat text) = text := by
  cases text with
  | nil => exact absurd rfl nonempty
  | cons first rest =>
      have firstDigit : isDigit first = true := digits first List.mem_cons_self
      by_cases zero : first = digitChar 0
      · subst zero
        cases rest with
        | nil => rfl
        | cons second rest => exact absurd rfl (plain (by simp))
      · have positive : digitValue first ≠ 0 := by
          intro value
          apply zero
          rw [← value, digitChar_digitValue firstDigit]
        have read : Nat.digits 10 (toNat (first :: rest)) =
            (first :: rest).reverse.map digitValue := by
          apply Nat.digits_ofDigits 10 (by decide)
          · intro digit member
            obtain ⟨char, charMember, rfl⟩ := List.mem_map.mp member
            exact digitValue_lt (digits char (List.mem_reverse.mp charMember))
          · intro nonempty
            simpa [List.getLast_map] using positive
        have nonzero : toNat (first :: rest) ≠ 0 := by
          intro value
          simp [value] at read
        rw [ofNat, if_neg nonzero, read, List.map_map, ← List.map_reverse, List.reverse_reverse]
        conv_rhs => rw [← List.map_id (first :: rest)]
        apply List.map_congr_left
        exact fun char member => digitChar_digitValue (digits char member)

theorem signed_natAbs (n : Int) : signed (n < 0) n.natAbs = n := by
  by_cases negative : n < 0
  · simp only [signed, negative, decide_true, if_true]
    omega
  · simp only [signed, negative, decide_false, Bool.false_eq_true, if_false]
    omega

theorem natAbs_signed (negative : Bool) (magnitude : Nat) :
    (signed negative magnitude).natAbs = magnitude := by
  cases negative <;> simp [signed]

theorem ofNat_inj {n m : Nat} : ofNat n = ofNat m ↔ n = m := by
  constructor
  · intro same
    rw [← toNat_ofNat n, same, toNat_ofNat]
  · intro same
    rw [same]

theorem minus_append_ne (text : List UInt8) (n : Nat) : sign true ++ text ≠ ofNat n := by
  intro same
  have minus : '-'.toUInt8 ∈ ofNat n := by
    rw [← same]
    exact List.mem_cons_self
  exact absurd (allDigits_ofNat n _ minus) (by decide)

theorem ofInt_inj {n m : Int} : ofInt n = ofInt m ↔ n = m := by
  constructor
  · intro same
    rw [ofInt, ofInt] at same
    by_cases negative : n < 0 <;> by_cases other : m < 0 <;>
      simp only [negative, other, decide_true, decide_false] at same
    · have magnitudes := ofNat_inj.mp (List.append_cancel_left same)
      omega
    · exact absurd same (minus_append_ne _ _)
    · exact absurd same.symm (minus_append_ne _ _)
    · have magnitudes := ofNat_inj.mp (List.append_cancel_left same)
      omega
  · intro same
    rw [same]

end PhpDriver.Data.DecimalText
