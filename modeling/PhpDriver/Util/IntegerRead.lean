import PhpDriver.Data.FixedWidth
import PhpDriver.Util.IntegerParse

namespace PhpDriver

open Data

/-! `php_driver_parse_int` and `php_driver_parse_bigint` of `util/math.c`, with the length
they are given, and what they read. -/

def fixedLimit (width : Nat) (negative : Bool) : Nat :=
  if negative then 2 ^ (width - 1) else 2 ^ (width - 1) - 1

def parseFixed (width : Nat) (input : List UInt8) (inLen : Int) : Except NumberError Int :=
  let (base, pos, negative) := prepareStringConversion input
  let converted := strtoull (input.drop pos) base
  -- the number is narrowed before it is compared with the limit
  let temp := converted.value % 2 ^ width
  if converted.outOfRange ∨ fixedLimit width negative < temp then .error .range
  else if converted.length = 0 then .error .invalidNumber
  else if ((pos + converted.length : Nat) : Int) ≠ inLen then .error .invalidCharacters
  else .ok (if negative then -(temp : Int) else temp)

def parseInt : List UInt8 → Int → Except NumberError Int :=
  parseFixed 32

def parseBigintOf : List UInt8 → Int → Except NumberError Int :=
  parseFixed 64

theorem digitValue_of_isXDigit {char : UInt8} (digit : isXDigit char = true) :
    Numeral.digitValue char = xdigitValue char := by
  simp only [isXDigit, Bool.or_eq_true, Bool.and_eq_true, decide_eq_true_eq] at digit
  rw [Numeral.digitValue, xdigitValue]
  split
  · rfl
  · rename_i other
    rcases digit with (decimal | lower) | upper
    · exact absurd decimal other
    · rw [if_pos (by omega), if_pos (by omega)]
    · rw [if_neg (by omega), if_pos (by omega), if_neg (by omega)]

theorem isXDigit_of_digitValue {char : UInt8} (small : Numeral.digitValue char < 16) :
    isXDigit char = true := by
  simp only [isXDigit, Bool.or_eq_true, Bool.and_eq_true, decide_eq_true_eq]
  rw [Numeral.digitValue] at small
  split at small
  · rename_i decimal
    exact Or.inl (Or.inl decimal)
  · split at small
    · exact Or.inl (Or.inr (by omega))
    · split at small
      · exact Or.inr (by omega)
      · omega

theorem digitValue_lt_of_isXDigit {char : UInt8} (digit : isXDigit char = true) :
    Numeral.digitValue char < 16 := by
  rw [digitValue_of_isXDigit digit, xdigitValue]
  simp only [isXDigit, Bool.or_eq_true, Bool.and_eq_true, decide_eq_true_eq] at digit
  split
  · rename_i decimal
    have bound := DecimalText.digitValue_lt decimal
    omega
  · rename_i other
    have letters := digit.imp_left fun known => known.resolve_left other
    split <;> omega

theorem isDigitOf_iff {base : Nat} (small : base ≤ 16) {char : UInt8} :
    isDigitOf base char = true ↔ Numeral.digitValue char < base := by
  rw [isDigitOf, Bool.and_eq_true, decide_eq_true_eq]
  constructor
  · rintro ⟨digit, bound⟩
    rwa [digitValue_of_isXDigit digit]
  · intro bound
    have digit := isXDigit_of_digitValue (Nat.lt_of_lt_of_le bound small)
    exact ⟨digit, by rwa [← digitValue_of_isXDigit digit]⟩

theorem ofDigits_xdigitValue {base : Nat} (small : base ≤ 16) {digits : List UInt8}
    (bounded : ∀ char ∈ digits, Numeral.digitValue char < base) :
    Nat.ofDigits base (digits.reverse.map xdigitValue) = Numeral.value base digits := by
  rw [Numeral.value]
  congr 1
  apply List.map_congr_left
  intro char member
  have bound := bounded char (List.mem_reverse.mp member)
  exact (digitValue_of_isXDigit (isXDigit_of_digitValue (Nat.lt_of_lt_of_le bound small))).symm

/-! What `strtoull` takes for a number, after blanks and a sign. -/

def strtoullBases (letter : UInt8) : Option Nat :=
  if letter = 'x'.toUInt8 ∨ letter = 'X'.toUInt8 then some 16 else none

def convertNumber (base before : Nat) (negative : Bool) (text : List UInt8) : Converted :=
  let (base, skipped) := conversionBase base text
  let digits := (text.drop skipped).takeWhile (isDigitOf base)
  if digits = [] then { value := 0, length := 0, outOfRange := false }
  else
    let value := Nat.ofDigits base (digits.reverse.map xdigitValue)
    let length := before + skipped + digits.length
    if 2 ^ 64 ≤ value then { value := 2 ^ 64 - 1, length, outOfRange := true }
    else { value := if negative then (2 ^ 64 - value) % 2 ^ 64 else value, length,
           outOfRange := false }

theorem convertNumber_lt (base before : Nat) (negative : Bool) (text : List UInt8) :
    (convertNumber base before negative text).value < 2 ^ 64 := by
  simp only [convertNumber]
  split
  · exact Nat.two_pow_pos 64
  · split
    · exact Nat.sub_lt (Nat.two_pow_pos 64) Nat.one_pos
    · rename_i small
      split
      · exact Nat.mod_lt _ (Nat.two_pow_pos 64)
      · exact Nat.lt_of_not_le small

theorem strtoull_eq_convertNumber (text : List UInt8) (base : Nat) :
    let tail := text.drop (text.takeWhile isSpace).length
    let sign := if charAt tail 0 = '-'.toUInt8 ∨ charAt tail 0 = '+'.toUInt8 then 1 else 0
    strtoull text base = convertNumber base ((text.takeWhile isSpace).length + sign)
      (charAt tail 0 = '-'.toUInt8) (tail.drop sign) := by
  simp only [strtoull, convertNumber, decide_eq_true_eq]

section

variable {text digits : List UInt8} {base b skipped before magnitude : Nat} {negative : Bool}

theorem conversionBase_two (text : List UInt8) : conversionBase 2 text = (2, 0) := by
  simp [conversionBase]

theorem conversionBase_decimal (plain : text.head? ≠ some '0'.toUInt8) (nonempty : text ≠ []) :
    conversionBase 0 text = (10, 0) := by
  cases text with
  | nil => exact absurd rfl nonempty
  | cons first rest =>
      have other : first ≠ '0'.toUInt8 := fun same => plain (congrArg some same)
      simp [conversionBase, charAt, other]

theorem strtoullBases_eq_some_iff {letter : UInt8} :
    strtoullBases letter = some b ↔
      b = 16 ∧ (letter = 'x'.toUInt8 ∨ letter = 'X'.toUInt8) := by
  rw [strtoullBases]
  split
  · rename_i known
    simp [known, eq_comm]
  · rename_i other
    exact iff_of_false (by simp) fun known => other known.2

theorem isNumeral_octal (bounded : ∀ char ∈ digits, Numeral.digitValue char < 8) :
    Numeral.IsNumeral 8 ('0'.toUInt8 :: digits) :=
  ⟨by simp, List.forall_mem_cons.mpr ⟨by decide, bounded⟩⟩

theorem isNumeral_takeWhile (small : b ≤ 16) (some : text.takeWhile (isDigitOf b) ≠ []) :
    Numeral.IsNumeral b (text.takeWhile (isDigitOf b)) :=
  ⟨some, fun _ member => (isDigitOf_iff small).mp (List.mem_takeWhile_imp member)⟩

/-- Digits at the beginning of a text are among those that are taken. -/
theorem begins_takeWhile (small : b ≤ 16) (begins : digits <+: text)
    (bounded : ∀ char ∈ digits, Numeral.digitValue char < b) :
    digits <+: text.takeWhile (isDigitOf b) := by
  obtain ⟨rest, rfl⟩ := begins
  rw [List.takeWhile_append_of_pos fun char member => (isDigitOf_iff small).mpr (bounded char member)]
  exact List.prefix_append _ _

theorem ne_nil_of_begins {left right : List UInt8} (begins : left <+: right) (some : left ≠ []) :
    right ≠ [] := by
  rintro rfl
  exact some (List.prefix_nil.mp begins)

structure TakesDigits (base : Nat) (text : List UInt8) (b skipped : Nat) : Prop where
  conversion : conversionBase base text = (b, skipped)
  small : b ≤ 16
  inside : skipped ≤ text.length
  number : (text.drop skipped).takeWhile (isDigitOf b) ≠ [] →
    Numeral.InBase strtoullBases base
      (text.take skipped ++ (text.drop skipped).takeWhile (isDigitOf b))
      (Numeral.value b ((text.drop skipped).takeWhile (isDigitOf b)))
  longest : ∀ other magnitude, other <+: text →
    Numeral.InBase strtoullBases base other magnitude →
      (text.drop skipped).takeWhile (isDigitOf b) ≠ [] ∧
        other <+: text.take skipped ++ (text.drop skipped).takeWhile (isDigitOf b)

theorem takes_two (text : List UInt8) : TakesDigits 2 text 2 0 where
  conversion := conversionBase_two text
  small := by decide
  inside := Nat.zero_le _
  number some := ⟨isNumeral_takeWhile (by decide) some, rfl⟩
  longest := by
    rintro other _ begins ⟨numeral, rfl⟩
    have taken := begins_takeWhile (by decide) begins numeral.bounded
    exact ⟨ne_nil_of_begins taken numeral.nonempty, taken⟩

/-- The first characters are the same where one text begins another. -/
theorem head?_of_begins {left right : List UInt8} (begins : left <+: right) (some : left ≠ []) :
    right.head? = left.head? := by
  obtain ⟨rest, rfl⟩ := begins
  exact List.head?_append_of_ne_nil _ some

theorem takes_decimal (plain : text.head? ≠ some '0'.toUInt8) (nonempty : text ≠ []) :
    TakesDigits 0 text 10 0 where
  conversion := conversionBase_decimal plain nonempty
  small := by decide
  inside := Nat.zero_le _
  number some := by
    apply Numeral.Magnitude.decimal (isNumeral_takeWhile (by decide) some)
    rwa [← head?_of_begins (List.takeWhile_prefix _) some]
  longest := by
    intro other magnitude begins reads
    cases reads with
    | decimal numeral _ =>
        have taken := begins_takeWhile (by decide) begins numeral.bounded
        exact ⟨ne_nil_of_begins taken numeral.nonempty, taken⟩
    | octal => exact absurd (head?_of_begins begins (by simp)) plain
    | based => exact absurd (head?_of_begins begins (by simp)) plain

theorem digitValue_letter {letter : UInt8} (known : strtoullBases letter = some b) :
    ¬ Numeral.digitValue letter < 8 := by
  obtain ⟨_, rfl | rfl⟩ := strtoullBases_eq_some_iff.mp known
  all_goals decide

theorem takes_hex {letter digit : UInt8} (known : strtoullBases letter = some 16)
    (xdigit : isXDigit digit = true) :
    TakesDigits 0 ('0'.toUInt8 :: letter :: digit :: digits) 16 2 where
  conversion := by
    rw [conversionBase, if_pos]
    exact ⟨Or.inl rfl, rfl, (strtoullBases_eq_some_iff.mp known).2, xdigit⟩
  small := by decide
  inside := by simp
  number some := .based known (isNumeral_takeWhile (by decide) some)
  longest := by
    have first : isDigitOf 16 digit = true :=
      (isDigitOf_iff (Nat.le_refl 16)).mpr (digitValue_lt_of_isXDigit xdigit)
    have some : (digit :: digits).takeWhile (isDigitOf 16) ≠ [] := by
      rw [List.takeWhile_cons_of_pos first]
      exact List.cons_ne_nil _ _
    intro other magnitude begins reads
    refine ⟨some, ?_⟩
    cases reads with
    | decimal numeral plain =>
        exact absurd (head?_of_begins begins numeral.nonempty).symm plain
    | @octal octals bounded =>
        obtain ⟨_, begins⟩ := List.cons_prefix_cons.mp begins
        cases octals with
        | nil => exact ⟨_, rfl⟩
        | cons first rest =>
            obtain ⟨rfl, _⟩ := List.cons_prefix_cons.mp begins
            exact absurd (bounded first List.mem_cons_self) (digitValue_letter known)
    | based other numeral =>
        obtain ⟨_, behindZero⟩ := List.cons_prefix_cons.mp begins
        obtain ⟨rfl, behindLetter⟩ := List.cons_prefix_cons.mp behindZero
        obtain rfl := Option.some.inj (known.symm.trans other)
        have taken := begins_takeWhile (Nat.le_refl 16) behindLetter numeral.bounded
        exact List.cons_prefix_cons.mpr ⟨rfl, List.cons_prefix_cons.mpr ⟨rfl, taken⟩⟩

theorem takes_octal (noPrefix : ∀ letter digit rest, digits = letter :: digit :: rest →
      strtoullBases letter = some 16 → isXDigit digit = false) :
    TakesDigits 0 ('0'.toUInt8 :: digits) 8 0 where
  conversion := by
    rw [conversionBase, if_neg]
    · rfl
    · rintro ⟨_, _, letters, xdigit⟩
      match digits, noPrefix, letters, xdigit with
      | [], _, letters, _ => exact absurd letters (by decide)
      | [_], _, _, xdigit => exact absurd (show isXDigit 0 = true from xdigit) (by decide)
      | letter :: digit :: rest, noPrefix, letters, xdigit =>
          have other := noPrefix letter digit rest rfl (strtoullBases_eq_some_iff.mpr ⟨rfl, letters⟩)
          exact absurd (other.symm.trans xdigit) (by decide)
  small := by decide
  inside := Nat.zero_le _
  number some := by
    have zero : isDigitOf 8 '0'.toUInt8 = true := by decide
    rw [List.drop_zero, List.take_zero, List.nil_append, List.takeWhile_cons_of_pos zero,
      Numeral.value_zero_cons]
    exact .octal fun _ member => (isDigitOf_iff (by decide)).mp (List.mem_takeWhile_imp member)
  longest := by
    intro other magnitude begins reads
    cases reads with
    | decimal numeral plain =>
        exact absurd (head?_of_begins begins numeral.nonempty).symm plain
    | octal bounded =>
        have taken := begins_takeWhile (by decide) begins (isNumeral_octal bounded).bounded
        exact ⟨ne_nil_of_begins taken (by simp), taken⟩
    | @based letter _ digits known numeral =>
        obtain ⟨rfl, _⟩ := strtoullBases_eq_some_iff.mp known
        obtain ⟨_, begins⟩ := List.cons_prefix_cons.mp begins
        obtain ⟨rest, rfl⟩ := begins
        cases digits with
        | nil => exact absurd rfl numeral.nonempty
        | cons first tail =>
            have other := noPrefix letter first (tail ++ rest) rfl known
            have digit := isXDigit_of_digitValue (numeral.bounded first List.mem_cons_self)
            exact absurd (other.symm.trans digit) (by decide)

end

/-- The longest beginning of the text that is a number, as the library has it. -/
structure LongestNumber (base : Nat) (text number : List UInt8) (magnitude : Nat) : Prop where
  begins : number <+: text
  inBase : Numeral.InBase strtoullBases base number magnitude
  longest : ∀ other value, other <+: text →
    Numeral.InBase strtoullBases base other value → other <+: number

theorem exists_takes {base : Nat} (known : base = 0 ∨ base = 2) {text : List UInt8}
    (nonempty : text ≠ []) : ∃ b skipped, TakesDigits base text b skipped := by
  rcases known with rfl | rfl
  · by_cases plain : text.head? = some '0'.toUInt8
    · cases text with
      | nil => cases plain
      | cons first rest =>
          obtain rfl := Option.some.inj plain
          by_cases hex : ∃ letter digit digits, rest = letter :: digit :: digits ∧
              strtoullBases letter = some 16 ∧ isXDigit digit = true
          · obtain ⟨letter, digit, digits, rfl, letters, xdigit⟩ := hex
            exact ⟨16, 2, takes_hex letters xdigit⟩
          · refine ⟨8, 0, takes_octal ?_⟩
            intro letter digit digits shape letters
            apply Bool.eq_false_iff.mpr
            exact fun xdigit => hex ⟨letter, digit, digits, shape, letters, xdigit⟩
    · exact ⟨10, 0, takes_decimal plain nonempty⟩
  · exact ⟨2, 0, takes_two text⟩

theorem ne_nil_of_inBase {bases : UInt8 → Option Nat} {base magnitude : Nat} {number : List UInt8}
    (inBase : Numeral.InBase bases base number magnitude) : number ≠ [] := by
  rw [Numeral.InBase] at inBase
  split at inBase
  · obtain ⟨_, _, rfl, _⟩ := inBase.head
    exact List.cons_ne_nil _ _
  · exact inBase.1.nonempty

theorem LongestNumber.unique {base first second : Nat} {text left right : List UInt8}
    (one : LongestNumber base text left first) (other : LongestNumber base text right second) :
    left = right ∧ first = second := by
  obtain rfl : left = right :=
    (other.longest _ _ one.begins one.inBase).eq_of_length_le
      (one.longest _ _ other.begins other.inBase).length_le
  exact ⟨rfl, Numeral.InBase.functional
    (fun _ _ known => Nat.not_lt.mp (digitValue_letter known)) one.inBase other.inBase⟩

theorem convertNumber_cases {base : Nat} (known : base = 0 ∨ base = 2) (before : Nat)
    (negative : Bool) (text : List UInt8) :
    ((∀ number magnitude, ¬ LongestNumber base text number magnitude) ∧
        convertNumber base before negative text = { value := 0, length := 0, outOfRange := false }) ∨
      ∃ number magnitude, LongestNumber base text number magnitude ∧
        convertNumber base before negative text =
          { value := if 2 ^ 64 ≤ magnitude then 2 ^ 64 - 1
              else if negative then (2 ^ 64 - magnitude) % 2 ^ 64 else magnitude,
            length := before + number.length, outOfRange := decide (2 ^ 64 ≤ magnitude) } := by
  by_cases empty : text = []
  · subst empty
    left
    constructor
    · intro number magnitude longest
      exact ne_nil_of_inBase longest.inBase (List.prefix_nil.mp longest.begins)
    · simp [convertNumber]
  · obtain ⟨b, skipped, takes⟩ := exists_takes known empty
    by_cases none : (text.drop skipped).takeWhile (isDigitOf b) = []
    · left
      constructor
      · intro number magnitude longest
        exact (takes.longest number magnitude longest.begins longest.inBase).1 none
      · simp only [convertNumber, takes.conversion, none, if_true]
    · right
      have bounded : ∀ char ∈ (text.drop skipped).takeWhile (isDigitOf b),
          Numeral.digitValue char < b :=
        fun _ member => (isDigitOf_iff takes.small).mp (List.mem_takeWhile_imp member)
      have length : before + skipped + ((text.drop skipped).takeWhile (isDigitOf b)).length =
          before + (text.take skipped ++
            (text.drop skipped).takeWhile (isDigitOf b)).length := by
        rw [List.length_append, List.length_take, Nat.min_eq_left takes.inside, Nat.add_assoc]
      refine ⟨_, _, ⟨?_, takes.number none, fun other value begins inBase =>
        (takes.longest other value begins inBase).2⟩, ?_⟩
      · obtain ⟨rest, whole⟩ := List.takeWhile_prefix (l := text.drop skipped) (isDigitOf b)
        exact ⟨rest, by rw [List.append_assoc, whole, List.take_append_drop]⟩
      · simp only [convertNumber, takes.conversion, none, if_false,
          ofDigits_xdigitValue takes.small bounded, length]
        split
        · rename_i large
          rw [decide_eq_true large]
        · rename_i fits
          rw [decide_eq_false fits]

theorem takeWhile_length_append {holds : UInt8 → Bool} {left right : List UInt8}
    (inside : ∀ char ∈ left, holds char = true)
    (stop : ∀ char, right.head? = some char → holds char = false) :
    (left ++ right).takeWhile holds = left := by
  have stopped : right.takeWhile holds = [] := by
    cases right with
    | nil => rfl
    | cons char rest => simp [stop char rfl]
  rw [List.takeWhile_append_of_pos inside, stopped, List.append_nil]

theorem charAt_signed {text rest : List UInt8} {sign : Numeral.Sign}
    (signed : Numeral.Signed text sign rest) :
    (charAt text 0 = '-'.toUInt8 ↔ sign.negative = true) ∧
      (charAt text 0 = '-'.toUInt8 ∨ charAt text 0 = '+'.toUInt8 ↔ sign.text.length = 1) := by
  obtain ⟨rfl, unsigned⟩ := signed
  cases sign with
  | none =>
      cases rest with
      | nil => exact ⟨by decide, by decide⟩
      | cons char rest =>
          obtain ⟨plus, minus⟩ := unsigned rfl char rfl
          exact ⟨iff_of_false minus (by decide), iff_of_false (not_or.mpr ⟨minus, plus⟩) (by decide)⟩
  | plus => exact ⟨iff_of_false (show ¬ '+'.toUInt8 = '-'.toUInt8 by decide) (by decide), iff_of_true (Or.inr rfl) rfl⟩
  | minus => exact ⟨iff_of_true rfl rfl, iff_of_true (Or.inl rfl) rfl⟩

theorem strtoull_eq {blanks tail rest : List UInt8} {sign : Numeral.Sign}
    (blank : ∀ char ∈ blanks, isSpace char = true)
    (stop : ∀ char, tail.head? = some char → isSpace char = false)
    (signed : Numeral.Signed tail sign rest) (base : Nat) :
    strtoull (blanks ++ tail) base =
      convertNumber base (blanks.length + sign.text.length) sign.negative rest := by
  obtain ⟨minus, any⟩ := charAt_signed signed
  have spaces := takeWhile_length_append blank stop
  rw [minus] at any
  have signLength : (if sign.negative = true ∨ charAt tail 0 = '+'.toUInt8 then 1 else 0) =
      sign.text.length := by
    split
    · rename_i some
      exact (any.mp some).symm
    · rename_i none
      have length : sign.text.length ≠ 1 := fun one => none (any.mpr one)
      cases sign with
      | none => rfl
      | _ => exact absurd rfl length
  have tailDrop : tail.drop sign.text.length = rest := by
    rw [signed.eq, List.drop_left]
  have dropped : (blanks ++ tail).drop blanks.length = tail := List.drop_left
  simp only [strtoull, spaces, dropped, minus, signLength, tailDrop, convertNumber]

/-- The number that `php_driver_parse_bigint` has stored by the time it returns, whether it
accepts the text or not. -/
def storedBigint (input : List UInt8) : Int :=
  let (base, pos, negative) := prepareStringConversion input
  let temp := (strtoull (input.drop pos) base).value
  if negative then (if 2 ^ 63 < temp then -2 ^ 63 else -(temp : Int))
  else if 2 ^ 63 - 1 < temp then 2 ^ 63 - 1 else temp

theorem storedBigint_of_ok {input : List UInt8} {inLen n : Int}
    (parsed : parseBigintOf input inLen = .ok n) : storedBigint input = n := by
  simp only [parseBigintOf, parseFixed] at parsed
  simp only [storedBigint]
  generalize prepareStringConversion input = prepared at *
  obtain ⟨base, pos, negative⟩ := prepared
  have small : (strtoull (input.drop pos) base).value < 2 ^ 64 := by
    rw [strtoull_eq_convertNumber]
    exact convertNumber_lt _ _ _ _
  simp only [Nat.mod_eq_of_lt small] at parsed
  split at parsed
  · cases parsed
  · rename_i inRange
    have limit := Nat.not_lt.mp fun above => inRange (Or.inr above)
    split at parsed
    · cases parsed
    · split at parsed
      · cases parsed
      · cases parsed
        cases negative with
        | true => exact if_neg (Nat.not_lt.mpr limit)
        | false => exact if_neg (Nat.not_lt.mpr limit)

end PhpDriver
