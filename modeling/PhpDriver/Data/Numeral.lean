import PhpDriver.Data.DecimalText

namespace PhpDriver.Data.Numeral

/-! Numerals in ASCII, and the integer literals of C, whose base is told by a prefix. -/

/-- Letters of either case follow the decimal digits; the rest are digits of no base. -/
def digitValue (char : UInt8) : Nat :=
  if DecimalText.isDigit char then DecimalText.digitValue char
  else if 97 ≤ char.toNat ∧ char.toNat ≤ 122 then char.toNat - 87
  else if 65 ≤ char.toNat ∧ char.toNat ≤ 90 then char.toNat - 55
  else 256

def value (base : Nat) (digits : List UInt8) : Nat :=
  Nat.ofDigits base (digits.reverse.map digitValue)

structure IsNumeral (base : Nat) (digits : List UInt8) : Prop where
  nonempty : digits ≠ []
  bounded : ∀ char ∈ digits, digitValue char < base

/-- Literals without a sign: digits, a zero before octal digits, or a zero and the letter of
a base before its digits. -/
inductive Magnitude (bases : UInt8 → Option Nat) : List UInt8 → Nat → Prop
  | decimal {digits : List UInt8} (numeral : IsNumeral 10 digits)
      (plain : digits.head? ≠ some '0'.toUInt8) : Magnitude bases digits (value 10 digits)
  | octal {digits : List UInt8} (bounded : ∀ char ∈ digits, digitValue char < 8) :
      Magnitude bases ('0'.toUInt8 :: digits) (value 8 digits)
  | based {letter : UInt8} {base : Nat} {digits : List UInt8} (known : bases letter = some base)
      (numeral : IsNumeral base digits) :
      Magnitude bases ('0'.toUInt8 :: letter :: digits) (value base digits)

def InBase (bases : UInt8 → Option Nat) (base : Nat) (digits : List UInt8)
    (magnitude : Nat) : Prop :=
  if base = 0 then Magnitude bases digits magnitude
  else IsNumeral base digits ∧ magnitude = value base digits

inductive Sign where
  | none
  | plus
  | minus
deriving DecidableEq

namespace Sign

def text : Sign → List UInt8
  | none => []
  | plus => ['+'.toUInt8]
  | minus => ['-'.toUInt8]

def negative : Sign → Bool
  | minus => true
  | _ => false

end Sign

def IsLiteral (bases : UInt8 → Option Nat) (text : List UInt8) (n : Int) : Prop :=
  ∃ (sign : Sign) (number : List UInt8) (magnitude : Nat), text = sign.text ++ number ∧
    Magnitude bases number magnitude ∧ n = DecimalText.signed sign.negative magnitude

structure Signed (text : List UInt8) (sign : Sign) (rest : List UInt8) : Prop where
  eq : text = sign.text ++ rest
  unsigned : sign = .none → ∀ char, rest.head? = some char →
    char ≠ '+'.toUInt8 ∧ char ≠ '-'.toUInt8

theorem exists_signed (text : List UInt8) : ∃ sign rest, Signed text sign rest := by
  cases text with
  | nil => exact ⟨.none, [], rfl, by simp⟩
  | cons char rest =>
      by_cases plus : char = '+'.toUInt8
      · exact ⟨.plus, rest, by rw [plus]; rfl, by simp⟩
      · by_cases minus : char = '-'.toUInt8
        · exact ⟨.minus, rest, by rw [minus]; rfl, by simp⟩
        · refine ⟨.none, char :: rest, rfl, ?_⟩
          intro _ other head
          obtain rfl := Option.some.inj head
          exact ⟨plus, minus⟩

theorem digitValue_lt_ten_iff {char : UInt8} :
    digitValue char < 10 ↔ DecimalText.isDigit char = true := by
  rw [digitValue]
  split
  · rename_i digit
    exact iff_of_true (DecimalText.digitValue_lt digit) digit
  · rename_i other
    exact iff_of_false (by split <;> [omega; split <;> omega]) other

theorem digitValue_of_isDigit {char : UInt8} (digit : DecimalText.isDigit char = true) :
    digitValue char = DecimalText.digitValue char :=
  if_pos digit

theorem isNumeral_ten_iff {digits : List UInt8} :
    IsNumeral 10 digits ↔ digits ≠ [] ∧ DecimalText.AllDigits digits := by
  constructor
  · intro numeral
    exact ⟨numeral.nonempty, fun char member =>
      digitValue_lt_ten_iff.mp (numeral.bounded char member)⟩
  · rintro ⟨nonempty, digits⟩
    exact ⟨nonempty, fun char member => digitValue_lt_ten_iff.mpr (digits char member)⟩

theorem value_ten {digits : List UInt8} (all : DecimalText.AllDigits digits) :
    value 10 digits = DecimalText.toNat digits := by
  rw [value, DecimalText.toNat]
  congr 1
  apply List.map_congr_left
  intro char member
  exact digitValue_of_isDigit (all char (List.mem_reverse.mp member))

theorem value_zero_cons (base : Nat) (digits : List UInt8) :
    value base ('0'.toUInt8 :: digits) = value base digits := by
  have zero : digitValue '0'.toUInt8 = 0 := by decide
  rw [value, List.reverse_cons, List.map_append, Nat.ofDigits_append, List.map_singleton, zero]
  simp [value]

theorem printable_of_digitValue {char : UInt8} (digit : digitValue char < 256) :
    48 ≤ char.toNat := by
  by_contra small
  have other : DecimalText.isDigit char = false := by
    simp only [DecimalText.isDigit, Bool.and_eq_false_iff, decide_eq_false_iff_not]
    omega
  rw [digitValue, other, if_neg Bool.false_ne_true, if_neg (by omega), if_neg (by omega)] at digit
  omega

theorem Magnitude.head {bases : UInt8 → Option Nat} {text : List UInt8} {magnitude : Nat}
    (reads : Magnitude bases text magnitude) :
    ∃ first rest, text = first :: rest ∧ DecimalText.isDigit first = true := by
  cases reads with
  | decimal numeral plain =>
      cases text with
      | nil => exact absurd rfl numeral.nonempty
      | cons first rest =>
          exact ⟨first, rest, rfl,
            digitValue_lt_ten_iff.mp (numeral.bounded first List.mem_cons_self)⟩
  | octal => exact ⟨_, _, rfl, by decide⟩
  | based => exact ⟨_, _, rfl, by decide⟩

section

variable {bases : UInt8 → Option Nat} {magnitude : Nat}

theorem magnitude_decimal_iff {text : List UInt8} (plain : text.head? ≠ some '0'.toUInt8) :
    Magnitude bases text magnitude ↔ IsNumeral 10 text ∧ magnitude = value 10 text := by
  constructor
  · intro reads
    cases reads with
    | decimal numeral _ => exact ⟨numeral, rfl⟩
    | octal => exact absurd rfl plain
    | based => exact absurd rfl plain
  · rintro ⟨numeral, rfl⟩
    exact .decimal numeral plain

theorem magnitude_octal_iff {digits : List UInt8}
    (unknown : ∀ letter, digits.head? = some letter → bases letter = none) :
    Magnitude bases ('0'.toUInt8 :: digits) magnitude ↔
      (∀ char ∈ digits, digitValue char < 8) ∧ magnitude = value 8 digits := by
  constructor
  · intro reads
    cases reads with
    | decimal _ plain => exact absurd rfl plain
    | octal bounded => exact ⟨bounded, rfl⟩
    | based known => rw [unknown _ rfl] at known; cases known
  · rintro ⟨bounded, rfl⟩
    exact .octal bounded

theorem magnitude_based_iff {letter : UInt8} {base : Nat} {digits : List UInt8}
    (known : bases letter = some base) (noDigit : 8 ≤ digitValue letter) :
    Magnitude bases ('0'.toUInt8 :: letter :: digits) magnitude ↔
      IsNumeral base digits ∧ magnitude = value base digits := by
  constructor
  · intro reads
    cases reads with
    | decimal _ plain => exact absurd rfl plain
    | octal bounded => exact absurd (bounded letter List.mem_cons_self) (Nat.not_lt.mpr noDigit)
    | based other numeral =>
        obtain rfl := Option.some.inj (known.symm.trans other)
        exact ⟨numeral, rfl⟩
  · rintro ⟨numeral, rfl⟩
    exact .based known numeral

end

theorem Magnitude.functional {bases : UInt8 → Option Nat}
    (letters : ∀ letter base, bases letter = some base → 8 ≤ digitValue letter)
    {text : List UInt8} {first second : Nat} (firstReads : Magnitude bases text first)
    (secondReads : Magnitude bases text second) : first = second := by
  cases firstReads with
  | decimal numeral plain => exact ((magnitude_decimal_iff plain).mp secondReads).2.symm
  | octal bounded =>
      cases secondReads with
      | decimal _ plain => exact absurd rfl plain
      | octal => rfl
      | based known =>
          exact absurd (bounded _ List.mem_cons_self) (Nat.not_lt.mpr (letters _ _ known))
  | based known =>
      exact ((magnitude_based_iff known (letters _ _ known)).mp secondReads).2.symm

theorem InBase.functional {bases : UInt8 → Option Nat}
    (letters : ∀ letter base, bases letter = some base → 8 ≤ digitValue letter)
    {base : Nat} {text : List UInt8} {first second : Nat} (firstReads : InBase bases base text first)
    (secondReads : InBase bases base text second) : first = second := by
  rw [InBase] at firstReads secondReads
  split at firstReads
  · rename_i zero
    rw [if_pos zero] at secondReads
    exact firstReads.functional letters secondReads
  · rename_i other
    rw [if_neg other] at secondReads
    exact firstReads.2.trans secondReads.2.symm

theorem signed_of_digit (sign : Sign) {number : List UInt8}
    (digit : ∃ first rest, number = first :: rest ∧ DecimalText.isDigit first = true) :
    Signed (sign.text ++ number) sign number := by
  obtain ⟨first, rest, rfl, digit⟩ := digit
  refine ⟨rfl, ?_⟩
  intro _ char head
  obtain rfl := Option.some.inj head
  constructor <;> (rintro rfl; exact absurd digit (by decide))

theorem Signed.unique {text first second : List UInt8} {sign other : Sign}
    (signed : Signed text sign first) (otherSigned : Signed text other second) :
    sign = other ∧ first = second := by
  obtain ⟨rfl, unsigned⟩ := signed
  obtain ⟨same, otherUnsigned⟩ := otherSigned
  cases sign with
  | none =>
      cases other with
      | none => exact ⟨rfl, same⟩
      | plus => exact absurd rfl (unsigned rfl _ (congrArg List.head? same)).1
      | minus => exact absurd rfl (unsigned rfl _ (congrArg List.head? same)).2
  | plus =>
      cases other with
      | none => exact absurd rfl (otherUnsigned rfl _ (congrArg List.head? same.symm)).1
      | plus => exact ⟨rfl, (List.cons.inj same).2⟩
      | minus => exact absurd (List.cons.inj same).1 (by decide)
  | minus =>
      cases other with
      | none => exact absurd rfl (otherUnsigned rfl _ (congrArg List.head? same.symm)).2
      | plus => exact absurd (List.cons.inj same).1 (by decide)
      | minus => exact ⟨rfl, (List.cons.inj same).2⟩

theorem IsLiteral.functional {bases : UInt8 → Option Nat}
    (letters : ∀ letter base, bases letter = some base → 8 ≤ digitValue letter)
    {text : List UInt8} {first second : Int} (firstReads : IsLiteral bases text first)
    (secondReads : IsLiteral bases text second) : first = second := by
  obtain ⟨sign, number, magnitude, rfl, reads, rfl⟩ := firstReads
  obtain ⟨other, otherNumber, otherMagnitude, same, otherReads, rfl⟩ := secondReads
  have signed := signed_of_digit sign reads.head
  have otherSigned := signed_of_digit other otherReads.head
  rw [← same] at otherSigned
  obtain ⟨rfl, rfl⟩ := signed.unique otherSigned
  rw [reads.functional letters otherReads]

end PhpDriver.Data.Numeral
