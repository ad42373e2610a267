import PhpDriver.Decimal.Arithmetic
import PhpDriver.Util.IntegerExact

namespace PhpDriver

open Data

/-! The decimal texts: which there are, and the number each denotes. -/

namespace DecimalGrammar

def ExponentLetter (char : UInt8) : Prop :=
  char = 'e'.toUInt8 ∨ char = 'E'.toUInt8

instance (char : UInt8) : Decidable (ExponentLetter char) :=
  inferInstanceAs (Decidable (_ ∨ _))

def dotted : Option (List UInt8) → List UInt8
  | none => []
  | some fraction => '.'.toUInt8 :: fraction

def places (fraction : Option (List UInt8)) : Nat :=
  (fraction.getD []).length

inductive Exponent : List UInt8 → Int → Prop
  | absent : Exponent [] 0
  | present {letter : UInt8} (marks : ExponentLetter letter) (sign : Numeral.Sign)
      {digits : List UInt8} (nonempty : digits ≠ []) (all : DecimalText.AllDigits digits) :
      Exponent (letter :: (sign.text ++ digits))
        (DecimalText.signed sign.negative (DecimalText.toNat digits))

def OctalText (text : List UInt8) : Prop :=
  ∃ digits, text = '0'.toUInt8 :: digits ∧ ∀ char ∈ digits, Numeral.digitValue char < 8

/-- Decimal digits with at most one dot, and an exponent; the scale is a C `long`. -/
structure DecimalForm (text whole : List UInt8) (fraction : Option (List UInt8))
    (exponent : Int) : Prop where
  split : ∃ tail, text = whole ++ (dotted fraction ++ tail) ∧ Exponent tail exponent
  wholeDigits : DecimalText.AllDigits whole
  fractionDigits : DecimalText.AllDigits (fraction.getD [])
  nonempty : whole ++ fraction.getD [] ≠ []
  fits : -longMax - 1 ≤ places fraction - exponent ∧ places fraction - exponent ≤ longMax

inductive Denotes : List UInt8 → ℚ → Prop
  | based (sign : Numeral.Sign) {letter : UInt8} {base : Nat} {digits : List UInt8}
      (known : literalBases letter = some base) (numeral : Numeral.IsNumeral base digits) :
      Denotes (sign.text ++ '0'.toUInt8 :: letter :: digits)
        (DecimalText.signed sign.negative (Numeral.value base digits))
  | octal (sign : Numeral.Sign) {digits : List UInt8}
      (bounded : ∀ char ∈ digits, Numeral.digitValue char < 8) :
      Denotes (sign.text ++ '0'.toUInt8 :: digits)
        (DecimalText.signed sign.negative (Numeral.value 8 digits))
  | decimal (sign : Numeral.Sign) {text whole : List UInt8} {fraction : Option (List UInt8)}
      {exponent : Int} (form : DecimalForm text whole fraction exponent)
      (noOctal : ¬ OctalText text) :
      Denotes (sign.text ++ text)
        (scaled 10 (DecimalText.signed sign.negative
          (DecimalText.toNat (whole ++ fraction.getD []))) (places fraction - exponent))

theorem not_isDigit_of_exponent {char : UInt8} (marks : ExponentLetter char) :
    DecimalText.isDigit char = false := by
  rcases marks with rfl | rfl
  all_goals decide

theorem Exponent.head {tail : List UInt8} {exponent : Int} (power : Exponent tail exponent) :
    ∀ char, tail.head? = some char → ExponentLetter char := by
  intro char head
  cases power with
  | absent => cases head
  | present marks =>
      obtain rfl := Option.some.inj head
      exact marks

theorem dotted_head {fraction : Option (List UInt8)} {tail : List UInt8} {exponent : Int}
    (power : Exponent tail exponent) :
    ∀ char, (dotted fraction ++ tail).head? = some char → DecimalText.isDigit char = false := by
  intro char head
  cases fraction with
  | none => exact not_isDigit_of_exponent (power.head char head)
  | some fraction =>
      obtain rfl := Option.some.inj head
      decide

theorem digits_append_inj {left right leftTail rightTail : List UInt8}
    (leftDigits : DecimalText.AllDigits left) (rightDigits : DecimalText.AllDigits right)
    (leftStop : ∀ char, leftTail.head? = some char → DecimalText.isDigit char = false)
    (rightStop : ∀ char, rightTail.head? = some char → DecimalText.isDigit char = false)
    (same : left ++ leftTail = right ++ rightTail) : left = right ∧ leftTail = rightTail := by
  have leftTaken := takeWhile_length_append leftDigits leftStop
  have rightTaken := takeWhile_length_append rightDigits rightStop
  rw [same, rightTaken] at leftTaken
  obtain rfl := leftTaken
  exact ⟨rfl, List.append_cancel_left same⟩

theorem Exponent.functional {tail : List UInt8} {first second : Int} (one : Exponent tail first)
    (other : Exponent tail second) : first = second := by
  cases one with
  | absent => cases other; rfl
  | @present letter marks sign digits nonempty all =>
      generalize shape : letter :: (sign.text ++ digits) = tail at other
      cases other with
      | absent => cases shape
      | @present otherLetter _ otherSign otherDigits otherNonempty otherAll =>
          obtain ⟨_, same⟩ := List.cons.inj shape
          have begins {some_ : List UInt8} (nonempty : some_ ≠ [])
              (all : DecimalText.AllDigits some_) :
              ∃ first rest, some_ = first :: rest ∧ DecimalText.isDigit first = true := by
            cases some_ with
            | nil => exact absurd rfl nonempty
            | cons first rest => exact ⟨first, rest, rfl, all first List.mem_cons_self⟩
          have signed := Numeral.signed_of_digit sign (begins nonempty all)
          have otherSigned := Numeral.signed_of_digit otherSign (begins otherNonempty otherAll)
          rw [← same] at otherSigned
          obtain ⟨rfl, rfl⟩ := signed.unique otherSigned
          rfl

theorem DecimalForm.functional {text whole otherWhole : List UInt8}
    {fraction otherFraction : Option (List UInt8)} {exponent otherExponent : Int}
    (one : DecimalForm text whole fraction exponent)
    (other : DecimalForm text otherWhole otherFraction otherExponent) :
    whole = otherWhole ∧ fraction = otherFraction ∧ exponent = otherExponent := by
  obtain ⟨tail, rfl, power⟩ := one.split
  obtain ⟨otherTail, same, otherPower⟩ := other.split
  obtain ⟨rfl, rest⟩ := digits_append_inj one.wholeDigits other.wholeDigits (dotted_head power)
    (dotted_head otherPower) same
  have noDot {tail : List UInt8} (fraction : List UInt8) {exponent : Int}
      (power : Exponent tail exponent) : tail ≠ dotted (some fraction) := by
    rintro rfl
    exact absurd (power.head _ rfl) (by simp [ExponentLetter]; decide)
  cases fraction with
  | none =>
      cases otherFraction with
      | none =>
          obtain rfl : tail = otherTail := rest
          exact ⟨rfl, rfl, power.functional otherPower⟩
      | some otherFraction => exact absurd rest (noDot (otherFraction ++ otherTail) power)
  | some fraction =>
      cases otherFraction with
      | none => exact absurd rest.symm (noDot (fraction ++ tail) otherPower)
      | some otherFraction =>
          obtain ⟨_, behind⟩ := List.cons.inj rest
          have stop {tail : List UInt8} {exponent : Int} (power : Exponent tail exponent) :=
            fun char head => not_isDigit_of_exponent (power.head char head)
          obtain ⟨rfl, rfl⟩ := digits_append_inj one.fractionDigits other.fractionDigits
            (stop power) (stop otherPower) behind
          exact ⟨rfl, rfl, power.functional otherPower⟩

def Plain (char : UInt8) : Prop :=
  DecimalText.isDigit char = true ∨ char = '.'.toUInt8 ∨ ExponentLetter char ∨
    char = '+'.toUInt8 ∨ char = '-'.toUInt8

theorem Plain.printable {char : UInt8} (plain : Plain char) :
    isSpace char = false ∧ char ≠ 0 := by
  rcases plain with digit | rfl | (rfl | rfl) | rfl | rfl
  · refine ⟨isSpace_of_digit digit, ?_⟩
    rintro rfl
    exact absurd digit (by decide)
  all_goals decide

theorem Exponent.plain {tail : List UInt8} {exponent : Int} (power : Exponent tail exponent) :
    ∀ char ∈ tail, Plain char := by
  cases power with
  | absent => simp
  | present marks sign nonempty all =>
      refine List.forall_mem_cons.mpr ⟨Or.inr (Or.inr (Or.inl marks)), ?_⟩
      refine List.forall_mem_append.mpr ⟨?_, fun char member => Or.inl (all char member)⟩
      intro char member
      cases sign with
      | none => cases member
      | plus => exact Or.inr (Or.inr (Or.inr (Or.inl (List.mem_singleton.mp member))))
      | minus => exact Or.inr (Or.inr (Or.inr (Or.inr (List.mem_singleton.mp member))))

section

variable {text whole : List UInt8} {fraction : Option (List UInt8)} {exponent : Int}

theorem DecimalForm.plain (form : DecimalForm text whole fraction exponent) :
    ∀ char ∈ text, Plain char := by
  obtain ⟨tail, rfl, power⟩ := form.split
  refine List.forall_mem_append.mpr ⟨fun char member => Or.inl (form.wholeDigits char member), ?_⟩
  refine List.forall_mem_append.mpr ⟨?_, power.plain⟩
  cases fraction with
  | none => simp [dotted]
  | some fraction =>
      exact List.forall_mem_cons.mpr
        ⟨Or.inr (Or.inl rfl), fun char member => Or.inl (form.fractionDigits char member)⟩

theorem DecimalForm.head (form : DecimalForm text whole fraction exponent) :
    ∃ first rest, text = first :: rest ∧
      (DecimalText.isDigit first = true ∨ first = '.'.toUInt8) := by
  obtain ⟨tail, rfl, power⟩ := form.split
  have nonempty := form.nonempty
  cases whole with
  | cons first rest =>
      exact ⟨first, rest ++ (dotted fraction ++ tail), rfl,
        Or.inl (form.wholeDigits first List.mem_cons_self)⟩
  | nil =>
      cases fraction with
      | none => exact absurd rfl nonempty
      | some fraction => exact ⟨'.'.toUInt8, fraction ++ tail, rfl, Or.inr rfl⟩

theorem DecimalForm.signed (form : DecimalForm text whole fraction exponent)
    (sign : Numeral.Sign) : Numeral.Signed (sign.text ++ text) sign text := by
  obtain ⟨first, rest, rfl, begins⟩ := form.head
  refine ⟨rfl, ?_⟩
  intro _ char head
  obtain rfl := Option.some.inj head
  constructor
  all_goals
    rintro rfl
    rcases begins with digit | dot
    · exact absurd digit (by decide)
    · exact absurd dot (by decide)

theorem DecimalForm.second (form : DecimalForm text whole fraction exponent)
    {first letter : UInt8} {rest : List UInt8} (shape : text = first :: letter :: rest) :
    Gmp.mpzBases letter = none := by
  have plain := form.plain letter (by rw [shape]; simp)
  by_contra known
  rw [Gmp.mpzBases] at known
  have letters : letter = 'x'.toUInt8 ∨ letter = 'X'.toUInt8 ∨ letter = 'b'.toUInt8 ∨
      letter = 'B'.toUInt8 := by
    by_contra! other
    simp [other] at known
  rcases letters with rfl | rfl | rfl | rfl
  all_goals
    revert plain
    rw [Plain, ExponentLetter]
    decide

end

theorem mpzBases_of_literalBases {letter : UInt8} {base : Nat}
    (known : literalBases letter = some base) : Gmp.mpzBases letter = some base := by
  rcases literalBases_eq_some_iff.mp known with ⟨rfl, rfl⟩ | ⟨rfl, rfl⟩
  all_goals rfl

/-! The integer forms are the literals that begin with a zero. -/

theorem denotes_of_literal {sign : Numeral.Sign} {text rest : List UInt8} {n : Int}
    (literal : Numeral.IsLiteral literalBases text n)
    (signed : Numeral.Signed text sign ('0'.toUInt8 :: rest)) : Denotes text n := by
  obtain ⟨other, number, magnitude, rfl, reads, rfl⟩ := literal
  obtain ⟨rfl, rfl⟩ := signed.unique (Numeral.signed_of_digit other reads.head)
  cases reads with
  | decimal _ plain => exact absurd rfl plain
  | octal bounded => exact Denotes.octal _ bounded
  | based known numeral => exact Denotes.based _ known numeral

/-- What is denoted, if it is not the number of a literal, is that of a decimal form. -/
theorem Denotes.literal_or_form {text : List UInt8} {number : ℚ} (denotes : Denotes text number) :
    ∃ sign rest, Numeral.Signed text sign rest ∧
      ((∃ magnitude, Numeral.Magnitude literalBases rest magnitude ∧
          rest.head? = some '0'.toUInt8 ∧
          number = (DecimalText.signed sign.negative magnitude : ℚ)) ∨
        ∃ whole fraction exponent, DecimalForm rest whole fraction exponent ∧
          ¬ OctalText rest ∧ number = scaled 10 (DecimalText.signed sign.negative
            (DecimalText.toNat (whole ++ fraction.getD []))) (places fraction - exponent)) := by
  cases denotes with
  | @based sign letter base digits known numeral =>
      refine ⟨sign, _, Numeral.signed_of_digit sign ⟨_, _, rfl, by decide⟩, Or.inl ?_⟩
      exact ⟨_, .based known numeral, rfl, rfl⟩
  | @octal sign digits bounded =>
      refine ⟨sign, _, Numeral.signed_of_digit sign ⟨_, _, rfl, by decide⟩, Or.inl ?_⟩
      exact ⟨_, .octal bounded, rfl, rfl⟩
  | decimal sign form noOctal =>
      exact ⟨sign, _, form.signed sign, Or.inr ⟨_, _, _, form, noOctal, rfl⟩⟩

/-- A literal that begins with a zero is no decimal form, unless it is octal. -/
theorem not_form_of_magnitude {text whole : List UInt8} {fraction : Option (List UInt8)}
    {exponent : Int} {magnitude : Nat} (reads : Numeral.Magnitude literalBases text magnitude)
    (zero : text.head? = some '0'.toUInt8) (form : DecimalForm text whole fraction exponent) :
    OctalText text := by
  cases reads with
  | decimal _ plain => exact absurd zero plain
  | octal bounded => exact ⟨_, rfl, bounded⟩
  | based known => 
      have none := form.second rfl
      rw [mpzBases_of_literalBases known] at none
      cases none

theorem Denotes.functional {text : List UInt8} {first second : ℚ} (one : Denotes text first)
    (other : Denotes text second) : first = second := by
  obtain ⟨sign, rest, signed, forms⟩ := one.literal_or_form
  obtain ⟨otherSign, otherRest, otherSigned, otherForms⟩ := other.literal_or_form
  obtain ⟨rfl, rfl⟩ := signed.unique otherSigned
  rcases forms with ⟨magnitude, reads, zero, rfl⟩ | ⟨whole, fraction, exponent, form, noOctal, rfl⟩
  · rcases otherForms with ⟨_, otherReads, _, rfl⟩ | ⟨_, _, _, form, noOctal, _⟩
    · rw [reads.functional eight_le_of_literalBases otherReads]
    · exact absurd (not_form_of_magnitude reads zero form) noOctal
  · rcases otherForms with ⟨_, otherReads, zero, _⟩ | ⟨_, _, _, otherForm, _, rfl⟩
    · exact absurd (not_form_of_magnitude otherReads zero form) noOctal
    · obtain ⟨rfl, rfl, rfl⟩ := form.functional otherForm
      rfl

end DecimalGrammar

end PhpDriver
