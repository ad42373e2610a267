import PhpDriver.Data.BigEndian
import PhpDriver.Data.DecimalText
import PhpDriver.Data.Numeral

namespace PhpDriver

open Data

/-! The GMP library is outside the repository. Its integers are Lean's, its
arithmetic (`mpz_add`, `mpz_sub`, `mpz_mul_2exp`, `mpz_sgn`, ...) is Lean's, and
the conversions the extension relies on are a parameter with their documented
behaviour. -/

def mpzBit (n : Int) (i : Nat) : Prop :=
  n / 2 ^ i % 2 = 1

instance (n : Int) (i : Nat) : Decidable (mpzBit n i) :=
  inferInstanceAs (Decidable (n / 2 ^ i % 2 = 1))

def isSpace (char : UInt8) : Bool :=
  char = 32 || (9 ≤ char.toNat && char.toNat ≤ 13)

theorem isSpace_of_printable {char : UInt8} (printable : 48 ≤ char.toNat) :
    isSpace char = false := by
  have notBlank : char ≠ 32 := by
    rintro rfl
    exact absurd printable (by decide)
  simp [isSpace, notBlank]
  omega

theorem isSpace_of_digit {char : UInt8} (digit : DecimalText.isDigit char = true) :
    isSpace char = false := by
  simp only [DecimalText.isDigit, Bool.and_eq_true, decide_eq_true_eq] at digit
  exact isSpace_of_printable digit.1

def isOctalDigit (char : UInt8) : Bool :=
  48 ≤ char.toNat && char.toNat ≤ 55

structure Gmp where
  mpzImport : List UInt8 → Int
  mpzExport : Int → List UInt8
  mpzSizeinbase : Int → Nat → Nat
  mpzScan1 : Int → Nat → Nat
  mpzGetStr : Int → List UInt8
  mpzSetStr : List UInt8 → Nat → Option Int
  /-- Most significant byte first, never negative. -/
  import_eq : ∀ bytes, mpzImport bytes = BigEndian.toNat bytes
  /-- The sign is ignored and the most significant byte is non-zero. -/
  export_eq : ∀ n, mpzExport n = BigEndian.ofNat n.natAbs
  /-- The sign is ignored, a power of two is exact, and zero has size one. -/
  sizeinbase_two : ∀ n, mpzSizeinbase n 2 = max 1 n.natAbs.size
  /-- The first set bit from the starting bit towards more significant bits. -/
  scan1_eq : ∀ n start i, start ≤ i → mpzBit n i →
    (∀ j, start ≤ j → j < i → ¬ mpzBit n j) → mpzScan1 n start = i
  getStr_eq : ∀ n, mpzGetStr n = DecimalText.ofInt n
  setStr_decimal : ∀ (negative : Bool) digits, digits ≠ [] →
    DecimalText.AllDigits digits →
    mpzSetStr (DecimalText.sign negative ++ digits) 10 =
      some (DecimalText.signed negative (DecimalText.toNat digits))
  /-- A text without digits is no number. -/
  setStr_no_digit : ∀ text, (∀ char ∈ text, DecimalText.isDigit char = false) →
    mpzSetStr text 10 = none
  /-- A character that is no digit of the base makes the text invalid. -/
  setStr_invalid : ∀ text char, char ∈ text → isSpace char = false →
    char ≠ '-'.toUInt8 → DecimalText.isDigit char = false → mpzSetStr text 10 = none
  /-- Base zero: a leading zero not followed by a base letter announces octal. -/
  setStr_octal_zero : mpzSetStr ['0'.toUInt8] 0 = some 0
  setStr_octal_invalid : ∀ second rest, isSpace second = false →
    second ∉ ['x', 'X', 'b', 'B'].map Char.toUInt8 → isOctalDigit second = false →
    mpzSetStr ('0'.toUInt8 :: second :: rest) 0 = none

namespace Gmp

private def scan (n : Int) (start : Nat) : Nat :=
  ((List.range (n.natAbs.size + 1)).find? fun i => mpzBit n (start + i)).elim
    (2 ^ 64 - 1) (start + ·)

private def digitOf (char : UInt8) : Nat :=
  if 48 ≤ char.toNat ∧ char.toNat ≤ 57 then char.toNat - 48
  else if 97 ≤ char.toNat ∧ char.toNat ≤ 122 then char.toNat - 87
  else if 65 ≤ char.toNat ∧ char.toNat ≤ 90 then char.toNat - 55
  else 256

private def readDigits (base : Nat) (text : List UInt8) : Option Int :=
  if !text.isEmpty && text.all fun char => digitOf char < base then
    some (Nat.ofDigits base (text.reverse.map digitOf) : Nat)
  else none

private def readMagnitude (base : Nat) (text : List UInt8) : Option Int :=
  if base = 0 then
    match text with
    | 48 :: 120 :: rest | 48 :: 88 :: rest => readDigits 16 rest
    | 48 :: 98 :: rest | 48 :: 66 :: rest => readDigits 2 rest
    | 48 :: rest => readDigits 8 (48 :: rest)
    | _ => readDigits 10 text
  else readDigits base text

private def readInt (base : Nat) (text : List UInt8) : Option Int :=
  match text with
  | 45 :: rest => (readMagnitude base rest).map fun n => -n
  | _ => readMagnitude base text

private theorem bit_of_natAbs_lt {n : Int} {i : Nat} (bound : n.natAbs < 2 ^ i) :
    mpzBit n i ↔ n < 0 := by
  have pow : (n.natAbs : Int) < 2 ^ i := by exact_mod_cast bound
  by_cases negative : n < 0
  · have quotient : n / 2 ^ i = -1 := by
      rw [Int.ediv_eq_iff_of_pos (by positivity)]
      constructor <;> omega
    simp [mpzBit, quotient, negative]
  · have quotient : n / 2 ^ i = 0 := Int.ediv_eq_zero_of_lt (by omega) (by omega)
    simp [mpzBit, quotient, negative]

private theorem scan_eq (n : Int) (start i : Nat) (from_ : start ≤ i)
    (bit : mpzBit n i) (first : ∀ j, start ≤ j → j < i → ¬ mpzBit n j) :
    scan n start = i := by
  have near : i - start < n.natAbs.size + 1 := by
    by_contra far
    have high : n.natAbs < 2 ^ i := Nat.size_le.mp (by omega)
    have negative := (bit_of_natAbs_lt high).mp bit
    have pow : n.natAbs < 2 ^ (start + n.natAbs.size) := Nat.size_le.mp (by omega)
    exact first (start + n.natAbs.size) (by omega) (by omega)
      ((bit_of_natAbs_lt pow).mpr negative)
  have found : (List.range (n.natAbs.size + 1)).find?
      (fun k => decide (mpzBit n (start + k))) = some (i - start) := by
    rw [List.find?_range_eq_some]
    refine ⟨?_, List.mem_range.mpr near, ?_⟩
    · simpa [Nat.add_sub_cancel' from_] using bit
    · intro k before
      simpa using first (start + k) (by omega) (by omega)
  rw [scan, found]
  simp [Nat.add_sub_cancel' from_]

private def setStr (text : List UInt8) (base : Nat) : Option Int :=
  readInt base (text.filter fun char => !isSpace char)

private theorem digitOf_of_isDigit {char : UInt8}
    (digit : DecimalText.isDigit char = true) :
    digitOf char = DecimalText.digitValue char := by
  simp only [DecimalText.isDigit, Bool.and_eq_true, decide_eq_true_eq] at digit
  simp [digitOf, DecimalText.digitValue, digit]

private theorem isDigit_of_digitOf_lt {char : UInt8} (bound : digitOf char < 10) :
    DecimalText.isDigit char = true := by
  simp only [DecimalText.isDigit, Bool.and_eq_true, decide_eq_true_eq]
  simp only [digitOf] at bound
  split at bound <;> [assumption; skip]
  split at bound <;> [omega; skip]
  split at bound <;> omega

private theorem readMagnitude_decimal {digits : List UInt8} (nonempty : digits ≠ [])
    (allDigits : DecimalText.AllDigits digits) :
    readMagnitude 10 digits = some (DecimalText.toNat digits : Int) := by
  have bound : ∀ char ∈ digits, digitOf char < 10 := fun char member => by
    rw [digitOf_of_isDigit (allDigits char member)]
    exact DecimalText.digitValue_lt (allDigits char member)
  have values : digits.reverse.map digitOf = digits.reverse.map DecimalText.digitValue :=
    List.map_congr_left fun char member =>
      digitOf_of_isDigit (allDigits char (List.mem_reverse.mp member))
  have valid : (!digits.isEmpty && digits.all fun char => digitOf char < 10) = true := by
    simpa [nonempty] using bound
  simp only [readMagnitude, readDigits, DecimalText.toNat, values, valid, if_true]
  rfl

private theorem readMagnitude_isSome {text : List UInt8} {value : Int}
    (read : readMagnitude 10 text = some value) :
    text ≠ [] ∧ DecimalText.AllDigits text := by
  simp only [readMagnitude, readDigits] at read
  rw [if_neg (by decide)] at read
  split at read
  · rename_i valid
    simp only [Bool.and_eq_true, Bool.not_eq_true', List.isEmpty_eq_false_iff,
      List.all_eq_true, decide_eq_true_eq] at valid
    exact ⟨valid.1, fun char member => isDigit_of_digitOf_lt (valid.2 char member)⟩
  · exact absurd read (by simp)

private theorem readInt_isSome {text : List UInt8} {value : Int}
    (read : readInt 10 text = some value) :
    ∃ digits, digits ≠ [] ∧ DecimalText.AllDigits digits ∧
      (text = digits ∨ text = '-'.toUInt8 :: digits) := by
  unfold readInt at read
  split at read
  · rename_i rest
    obtain ⟨magnitude, readRest, _⟩ := Option.map_eq_some_iff.mp read
    obtain ⟨nonempty, digits⟩ := readMagnitude_isSome readRest
    exact ⟨rest, nonempty, digits, Or.inr rfl⟩
  · obtain ⟨nonempty, digits⟩ := readMagnitude_isSome read
    exact ⟨text, nonempty, digits, Or.inl rfl⟩

private theorem setStr_isSome {text : List UInt8} {value : Int}
    (set : setStr text 10 = some value) :
    (∃ char ∈ text, DecimalText.isDigit char = true) ∧
      ∀ char ∈ text, isSpace char = true ∨ char = '-'.toUInt8 ∨
        DecimalText.isDigit char = true := by
  obtain ⟨digits, nonempty, allDigits, shape⟩ := readInt_isSome set
  have inDigits (char : UInt8) (member : char ∈ digits) : char ∈ text := by
    have : char ∈ text.filter fun char => !isSpace char := by
      rcases shape with shape | shape <;> simp [shape, member]
    exact (List.mem_filter.mp this).1
  constructor
  · obtain ⟨char, member⟩ := List.exists_mem_of_ne_nil digits nonempty
    exact ⟨char, inDigits char member, allDigits char member⟩
  · intro char member
    cases space : isSpace char with
    | true => exact Or.inl rfl
    | false =>
        right
        have : char ∈ text.filter fun char => !isSpace char := by
          simp [member, space]
        rcases shape with shape | shape
        · rw [shape] at this
          exact Or.inr (allDigits char this)
        · rw [shape] at this
          rcases List.mem_cons.mp this with sign | digit
          · exact Or.inl sign
          · exact Or.inr (allDigits char digit)

private theorem setStr_decimal_eq (negative : Bool) (digits : List UInt8)
    (nonempty : digits ≠ []) (allDigits : DecimalText.AllDigits digits) :
    setStr (DecimalText.sign negative ++ digits) 10 =
      some (DecimalText.signed negative (DecimalText.toNat digits)) := by
  have noSpace : digits.filter (fun char => !isSpace char) = digits :=
    List.filter_eq_self.mpr fun char member => by
      simp [isSpace_of_digit (allDigits char member)]
  have magnitude := readMagnitude_decimal nonempty allDigits
  cases negative with
  | true =>
      have minus : isSpace '-'.toUInt8 = false := by decide
      simp only [setStr, DecimalText.sign, if_true, List.singleton_append,
        List.filter_cons, minus, noSpace, Bool.not_false]
      change (readMagnitude 10 digits).map (fun n => -n) = _
      rw [magnitude]
      rfl
  | false =>
      simp only [setStr, DecimalText.sign, Bool.false_eq_true, if_false, List.nil_append,
        noSpace]
      unfold readInt
      split
      · exact absurd (allDigits 45 (by simp)) (by decide)
      · exact magnitude

private theorem setStr_octal_none (second : UInt8) (rest : List UInt8)
    (space : isSpace second = false)
    (letter : second ∉ ['x', 'X', 'b', 'B'].map Char.toUInt8)
    (octal : isOctalDigit second = false) :
    setStr ('0'.toUInt8 :: second :: rest) 0 = none := by
  have invalid : ¬ digitOf second < 8 := by
    intro bound
    have digit := isDigit_of_digitOf_lt (Nat.lt_trans bound (by decide))
    rw [digitOf_of_isDigit digit, DecimalText.digitValue] at bound
    simp only [DecimalText.isDigit, Bool.and_eq_true, decide_eq_true_eq] at digit
    simp only [isOctalDigit, Bool.and_eq_false_iff, decide_eq_false_iff_not] at octal
    omega
  have zero : isSpace '0'.toUInt8 = false := by decide
  simp only [setStr, List.filter_cons, zero, space, Bool.not_false, if_true]
  have read (tail : List UInt8) : readDigits 8 (48 :: second :: tail) = none := by
    have refused : (!(48 :: second :: tail).isEmpty &&
        (48 :: second :: tail).all fun char => digitOf char < 8) = false := by
      simp [invalid]
    rw [readDigits, refused]
    rfl
  change readMagnitude 0 (48 :: second :: _) = none
  unfold readMagnitude
  rw [if_pos rfl]
  split
  case h_5 => rename_i same; cases same; exact read _
  case h_6 => rename_i other; exact absurd rfl (other _)
  all_goals
    rename_i same
    cases same
    exact absurd (by decide) letter

def reference : Gmp where
  mpzImport bytes := BigEndian.toNat bytes
  mpzExport n := BigEndian.ofNat n.natAbs
  mpzSizeinbase n base :=
    if base = 2 then max 1 n.natAbs.size else max 1 (Nat.digits base n.natAbs).length
  mpzScan1 := scan
  mpzGetStr := DecimalText.ofInt
  mpzSetStr := setStr
  import_eq _ := rfl
  export_eq _ := rfl
  sizeinbase_two _ := rfl
  scan1_eq := scan_eq
  getStr_eq _ := rfl
  setStr_decimal := setStr_decimal_eq
  setStr_no_digit := by
    intro text none
    by_contra some
    obtain ⟨value, set⟩ := Option.ne_none_iff_exists'.mp some
    obtain ⟨⟨char, member, digit⟩, _⟩ := setStr_isSome set
    exact absurd digit (by simp [none char member])
  setStr_invalid := by
    intro text char member space minus digit
    by_contra some
    obtain ⟨value, set⟩ := Option.ne_none_iff_exists'.mp some
    have := (setStr_isSome set).2 char member
    simp [space, minus, digit] at this
  setStr_octal_zero := by decide +kernel
  setStr_octal_invalid := setStr_octal_none

/-! What `mpz_set_str` takes for a number, in more detail. -/

def mpzBases (letter : UInt8) : Option Nat :=
  if letter = 'x'.toUInt8 ∨ letter = 'X'.toUInt8 then some 16
  else if letter = 'b'.toUInt8 ∨ letter = 'B'.toUInt8 then some 2
  else none

def withoutBlanks (text : List UInt8) : List UInt8 :=
  text.filter fun char => !isSpace char

structure Unbroken (number : List UInt8) : Prop where
  head : number.head? = (withoutBlanks number).head?
  letter : ∀ letter rest, withoutBlanks number = '0'.toUInt8 :: letter :: rest →
    (mpzBases letter).isSome → number.take 2 = ['0'.toUInt8, letter]

def MpzReads (base : Nat) (text : List UInt8) (n : Int) : Prop :=
  ∃ (blanks : List UInt8) (negative : Bool) (number : List UInt8) (magnitude : Nat),
    text = blanks ++ DecimalText.sign negative ++ number ∧
    (∀ char ∈ blanks, isSpace char = true) ∧ Unbroken number ∧
    Numeral.InBase mpzBases base (withoutBlanks number) magnitude ∧ n = DecimalText.signed negative magnitude

def MpzMayRead (base : Nat) (text : List UInt8) : Prop :=
  ∃ (negative : Bool) (digits : List UInt8),
    withoutBlanks text = DecimalText.sign negative ++ digits ∧
    ((∃ magnitude, Numeral.InBase mpzBases base digits magnitude) ∨
      base = 0 ∧ ∃ letter, (mpzBases letter).isSome ∧ digits = ['0'.toUInt8, letter])

/-- The library reads such numbers and nothing else. Blanks at other places and a prefix
alone are left open. -/
structure ReadsNumbers (gmp : Gmp) : Prop where
  reads : ∀ base text n, base ≤ 36 → MpzReads base text n → gmp.mpzSetStr text base = some n
  refuses : ∀ base text, base ≤ 36 → ¬ MpzMayRead base text → gmp.mpzSetStr text base = none

private theorem digitOf_eq (char : UInt8) : digitOf char = Numeral.digitValue char := by
  simp only [digitOf, Numeral.digitValue, DecimalText.isDigit, DecimalText.digitValue,
    Bool.and_eq_true, decide_eq_true_eq]

private theorem readDigits_eq_some_iff {base : Nat} {text : List UInt8} {n : Int} :
    readDigits base text = some n ↔
      Numeral.IsNumeral base text ∧ n = Numeral.value base text := by
  have valid : (!text.isEmpty && text.all fun char => digitOf char < base) = true ↔
      Numeral.IsNumeral base text := by
    simp only [Bool.and_eq_true, Bool.not_eq_true', List.isEmpty_eq_false_iff, List.all_eq_true,
      decide_eq_true_eq, digitOf_eq]
    exact ⟨fun known => ⟨known.1, known.2⟩, fun numeral => ⟨numeral.nonempty, numeral.bounded⟩⟩
  have value : Nat.ofDigits base (text.reverse.map digitOf) = Numeral.value base text := by
    rw [Numeral.value]
    congr 1
    exact List.map_congr_left fun char _ => digitOf_eq char
  rw [readDigits]
  split
  · rename_i numeral
    rw [value, Option.some.injEq, eq_comm, and_iff_right (valid.mp numeral)]
  · rename_i other
    exact iff_of_false (by simp) fun known => other (valid.mpr known.1)

private theorem readDigits_iff_exists {base : Nat} {digits text : List UInt8} {n : Int}
    (same : ∀ magnitude, Numeral.Magnitude mpzBases text magnitude ↔
      Numeral.IsNumeral base digits ∧ magnitude = Numeral.value base digits) :
    readDigits base digits = some n ↔
      ∃ magnitude : Nat, Numeral.Magnitude mpzBases text magnitude ∧ n = magnitude := by
  rw [readDigits_eq_some_iff]
  constructor
  · rintro ⟨numeral, rfl⟩
    exact ⟨_, (same _).mpr ⟨numeral, rfl⟩, rfl⟩
  · rintro ⟨magnitude, reads, rfl⟩
    obtain ⟨numeral, rfl⟩ := (same magnitude).mp reads
    exact ⟨numeral, rfl⟩

private theorem isNumeral_octal_iff (digits : List UInt8) :
    Numeral.IsNumeral 8 ('0'.toUInt8 :: digits) ↔
      ∀ char ∈ digits, Numeral.digitValue char < 8 := by
  have zero : Numeral.digitValue '0'.toUInt8 < 8 := by decide
  constructor
  · intro numeral char member
    exact numeral.bounded char (List.mem_cons_of_mem _ member)
  · intro bounded
    exact ⟨by simp, List.forall_mem_cons.mpr ⟨zero, bounded⟩⟩

private theorem readMagnitude_zero_eq_some_iff {text : List UInt8} {n : Int} :
    readMagnitude 0 text = some n ↔
      ∃ magnitude : Nat, Numeral.Magnitude mpzBases text magnitude ∧ n = magnitude := by
  unfold readMagnitude
  rw [if_pos rfl]
  split
  · exact readDigits_iff_exists fun _ => Numeral.magnitude_based_iff rfl (by decide)
  · exact readDigits_iff_exists fun _ => Numeral.magnitude_based_iff rfl (by decide)
  · exact readDigits_iff_exists fun _ => Numeral.magnitude_based_iff rfl (by decide)
  · exact readDigits_iff_exists fun _ => Numeral.magnitude_based_iff rfl (by decide)
  · rename_i digits small large binary upper
    apply readDigits_iff_exists
    intro magnitude
    have octal := isNumeral_octal_iff digits
    have value := Numeral.value_zero_cons 8 digits
    change Numeral.Magnitude mpzBases ('0'.toUInt8 :: digits) magnitude ↔
      Numeral.IsNumeral 8 ('0'.toUInt8 :: digits) ∧
        magnitude = Numeral.value 8 ('0'.toUInt8 :: digits)
    rw [octal, value]
    apply Numeral.magnitude_octal_iff
    intro letter head
    cases digits with
    | nil => cases head
    | cons first rest =>
        obtain rfl := Option.some.inj head
        rw [mpzBases, if_neg, if_neg]
        · rintro (rfl | rfl)
          · exact binary rest rfl
          · exact upper rest rfl
        · rintro (rfl | rfl)
          · exact small rest rfl
          · exact large rest rfl
  · rename_i other
    apply readDigits_iff_exists
    intro magnitude
    apply Numeral.magnitude_decimal_iff
    intro head
    cases text with
    | nil => cases head
    | cons first rest =>
        obtain rfl := Option.some.inj head
        exact other rest rfl

private theorem readMagnitude_eq_some_iff {base : Nat} {text : List UInt8} {n : Int} :
    readMagnitude base text = some n ↔
      ∃ magnitude : Nat, Numeral.InBase mpzBases base text magnitude ∧ n = magnitude := by
  by_cases zero : base = 0
  · simp only [zero, Numeral.InBase, if_true]
    exact readMagnitude_zero_eq_some_iff
  · simp only [readMagnitude, Numeral.InBase, zero, if_false, readDigits_eq_some_iff]
    constructor
    · rintro ⟨numeral, rfl⟩
      exact ⟨_, ⟨numeral, rfl⟩, rfl⟩
    · rintro ⟨_, ⟨numeral, rfl⟩, rfl⟩
      exact ⟨numeral, rfl⟩

/-- The digits of a base up to 36 do not begin with a minus sign. -/
private theorem head_ne_minus {base : Nat} {digits : List UInt8} {magnitude : Nat}
    (small : base ≤ 36) (inBase : Numeral.InBase mpzBases base digits magnitude) :
    digits.head? ≠ some 45 := by
  intro head
  cases digits with
  | nil => cases head
  | cons first rest =>
      obtain rfl := Option.some.inj head
      rw [Numeral.InBase] at inBase
      split at inBase
      · obtain ⟨_, _, same, digit⟩ := inBase.head
        obtain ⟨rfl, rfl⟩ := List.cons.inj same
        exact absurd digit (by decide)
      · have value : Numeral.digitValue 45 = 256 := by decide
        have bound := inBase.1.bounded 45 List.mem_cons_self
        omega

private theorem readInt_eq_some_iff {base : Nat} (small : base ≤ 36) {text : List UInt8}
    {n : Int} :
    readInt base text = some n ↔ ∃ (negative : Bool) (digits : List UInt8) (magnitude : Nat),
      text = DecimalText.sign negative ++ digits ∧ Numeral.InBase mpzBases base digits magnitude ∧
        n = DecimalText.signed negative magnitude := by
  constructor
  · intro read
    unfold readInt at read
    split at read
    · obtain ⟨value, magnitudeRead, rfl⟩ := Option.map_eq_some_iff.mp read
      obtain ⟨magnitude, inBase, rfl⟩ := readMagnitude_eq_some_iff.mp magnitudeRead
      exact ⟨true, _, magnitude, rfl, inBase, rfl⟩
    · obtain ⟨magnitude, inBase, rfl⟩ := readMagnitude_eq_some_iff.mp read
      exact ⟨false, _, magnitude, rfl, inBase, rfl⟩
  · rintro ⟨negative, digits, magnitude, rfl, inBase, rfl⟩
    have read := readMagnitude_eq_some_iff.mpr ⟨magnitude, inBase, rfl⟩
    cases negative with
    | true =>
        change (readMagnitude base digits).map (fun n => -n) = _
        rw [read]
        rfl
    | false =>
        change readInt base digits = _
        unfold readInt
        split
        · exact absurd rfl (head_ne_minus small inBase)
        · exact read

theorem withoutBlanks_append (left right : List UInt8) :
    withoutBlanks (left ++ right) = withoutBlanks left ++ withoutBlanks right :=
  List.filter_append ..

theorem withoutBlanks_of_blank {blanks : List UInt8}
    (blank : ∀ char ∈ blanks, isSpace char = true) : withoutBlanks blanks = [] := by
  rw [withoutBlanks, List.filter_eq_nil_iff]
  intro char member
  simp [blank char member]

theorem withoutBlanks_of_plain {text : List UInt8}
    (plain : ∀ char ∈ text, isSpace char = false) : withoutBlanks text = text := by
  apply List.filter_eq_self.mpr
  intro char member
  rw [plain char member]
  rfl

theorem withoutBlanks_sign (negative : Bool) :
    withoutBlanks (DecimalText.sign negative) = DecimalText.sign negative := by
  cases negative <;> decide

theorem reference_readsNumbers : reference.ReadsNumbers where
  reads := by
    rintro base text n small ⟨blanks, negative, number, magnitude, rfl, blank, _, inBase, rfl⟩
    change readInt base (withoutBlanks (blanks ++ _ ++ number)) = _
    rw [withoutBlanks_append, withoutBlanks_append, withoutBlanks_of_blank blank,
      withoutBlanks_sign, List.nil_append]
    exact (readInt_eq_some_iff small).mpr ⟨negative, _, magnitude, rfl, inBase, rfl⟩
  refuses := by
    intro base text small unread
    by_contra read
    obtain ⟨n, readInt⟩ := Option.ne_none_iff_exists'.mp read
    obtain ⟨negative, digits, magnitude, same, inBase, _⟩ := (readInt_eq_some_iff small).mp readInt
    exact unread ⟨negative, digits, same, Or.inl ⟨magnitude, inBase⟩⟩

end Gmp

end PhpDriver
