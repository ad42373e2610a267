import PhpDriver.Util.DecimalScan

namespace PhpDriver

open Data DecimalGrammar

/-! Which texts `php_driver_parse_decimal` reads as it should. The caller passes the length
as an `int`. -/

/-- Exactly the texts of the grammar are accepted, as their numbers; the others are refused
with an exception that leaves the number and the scale. -/
structure DecimalExact (gmp : Gmp) (text : List UInt8) (slot : Decimal) : Prop where
  accepts : (∃ written, parseDecimal gmp text (wrapInt text.length) slot = .ok written) ↔
    ∃ number, Denotes text number
  reads : ∀ written, parseDecimal gmp text (wrapInt text.length) slot = .ok written →
    Denotes text written.toRat
  refuses : (¬ ∃ number, Denotes text number) →
    ∃ error, parseDecimal gmp text (wrapInt text.length) slot = .exception error slot

/-- No digit and no minus sign is copied: the dot alone, or nothing. -/
def NothingCopied (sign : Numeral.Sign) (whole : List UInt8)
    (fraction : Option (List UInt8)) : Prop :=
  sign.negative = false ∧ whole = [] ∧ places fraction = 0

def DigitsCopied (whole : List UInt8) (fraction : Option (List UInt8))
    (rest : List UInt8) : Prop :=
  cString (copied whole fraction rest) ≠ [] ∧
    DecimalText.AllDigits (cString (copied whole fraction rest))

def copiedNumber (sign : Numeral.Sign) (whole : List UInt8) (fraction : Option (List UInt8))
    (rest : List UInt8) : Int :=
  DecimalText.signed sign.negative (DecimalText.toNat (cString (copied whole fraction rest)))

/-- The minus sign has room in the buffer, which has one byte more than the length. -/
def SignFits (sign : Numeral.Sign) (inLen : Int) : Prop :=
  ¬ (sign.negative = true ∧ inLen = 0)

/-- The texts of the grammar that are read: literals with a zero in front; significands of
which the parser sees what counts; digits with an exponent that is an `int`. -/
inductive ReadsWell (text : List UInt8) (inLen : Int) : Prop
  | integer {n : Int} (path : ReadAsInteger text inLen)
      (literal : Numeral.IsLiteral literalBases text n)
  | significand {sign : Numeral.Sign} {whole : List UInt8} {fraction : Option (List UInt8)}
      {rest : List UInt8} (other : ¬ ReadAsInteger text inLen)
      (shown : Shown text inLen sign whole fraction rest) (room : SignFits sign inLen)
      (some_ : ¬ NothingCopied sign whole fraction) (digits : DigitsCopied whole fraction rest)
      (atEnd : inLen ≤ pointOf sign whole fraction)
      (denotes : Denotes text (scaled 10 (copiedNumber sign whole fraction rest)
        (places fraction)))
  | exponent {sign power : Numeral.Sign} {letter : UInt8} {whole digits : List UInt8}
      (other : ¬ ReadAsInteger text inLen)
      (shown : Shown text inLen sign whole none (letter :: (power.text ++ digits)))
      (wholeDigits : DecimalText.AllDigits whole) (some_ : whole ≠ [])
      (marks : ExponentLetter letter) (all : DecimalText.AllDigits digits)
      (nonempty : digits ≠ [])
      (inside : (pointOf sign whole none + 1 + plusLength (power.text ++ digits) : Nat) < inLen)
      (fits : intMin ≤ DecimalText.signed power.negative (DecimalText.toNat digits) ∧
        DecimalText.signed power.negative (DecimalText.toNat digits) ≤ intMax)

/-- The other texts, when nothing is written that was not there before. -/
inductive RefusesWell (gmp : Gmp) (text : List UInt8) (inLen : Int) (slot : Decimal) : Prop
  | integer (path : ReadAsInteger text inLen) (readable : VarintReadable gmp text)
      (kept : slot.scale = 0)
  | character (other : ¬ ReadAsInteger text inLen)
      (none_ : ∀ sign whole fraction rest, ¬ Shown text inLen sign whole fraction rest)
  | nothing {sign : Numeral.Sign} {whole : List UInt8} {fraction : Option (List UInt8)}
      {rest : List UInt8} (other : ¬ ReadAsInteger text inLen)
      (shown : Shown text inLen sign whole fraction rest)
      (nothing : NothingCopied sign whole fraction) (kept : slot.scale = 0)
  | significand {sign : Numeral.Sign} {whole : List UInt8} {fraction : Option (List UInt8)}
      {rest : List UInt8} (other : ¬ ReadAsInteger text inLen)
      (shown : Shown text inLen sign whole fraction rest) (room : SignFits sign inLen)
      (some_ : ¬ NothingCopied sign whole fraction)
      (noDigits : ¬ DigitsCopied whole fraction rest)
      (blank : Gmp.MpzMayRead 10
          (cString (DecimalText.sign sign.negative ++ copied whole fraction rest)) →
        gmp.mpzSetStr
          (cString (DecimalText.sign sign.negative ++ copied whole fraction rest)) 10 = none)
      (kept : slot.scale = BitVec.ofInt 64 (places fraction))
  | exponent {sign : Numeral.Sign} {letter : UInt8} {whole tail : List UInt8}
      (other : ¬ ReadAsInteger text inLen)
      (shown : Shown text inLen sign whole none (letter :: tail))
      (digits : DigitsCopied whole none (letter :: tail))
      (inside : (pointOf sign whole none : Int) < inLen)
      (missing : inLen ≤ (pointOf sign whole none + 1 + plusLength tail : Nat) ∨
        NoNumber (cString (tail.drop (plusLength tail))))
      (kept : slot = { value := copiedNumber sign whole none (letter :: tail), scale := 0 })

section

variable {gmp : Gmp} {text whole rest : List UInt8} {inLen : Int} {sign : Numeral.Sign}
  {fraction : Option (List UInt8)} {slot : Decimal}

theorem parseDecimal_of_nothing (nonneg : 0 ≤ inLen) (other : ¬ ReadAsInteger text inLen)
    (shown : Shown text inLen sign whole fraction rest)
    (nothing : NothingCopied sign whole fraction) :
    parseDecimal gmp text inLen slot = .exception .noDigits { slot with scale := 0 } := by
  have room : ¬ (sign.negative = true ∧ inLen = 0) := by
    rw [nothing.1]
    simp
  rw [parseDecimal_of_shown nonneg other shown, if_neg room, parseSignificand_of_shown shown]
  refine (if_pos nothing).trans ?_
  rw [nothing.2.2]
  rfl

theorem parseDecimal_of_copied (nonneg : 0 ≤ inLen) (other : ¬ ReadAsInteger text inLen)
    (shown : Shown text inLen sign whole fraction rest) (room : SignFits sign inLen)
    (some_ : ¬ NothingCopied sign whole fraction) :
    parseDecimal gmp text inLen slot =
      match gmp.mpzSetStr
        (cString (DecimalText.sign sign.negative ++ copied whole fraction rest)) 10 with
      | none => .exception (.integerPart
          (cString (DecimalText.sign sign.negative ++ copied whole fraction rest)))
          { slot with scale := BitVec.ofInt 64 (places fraction) }
      | some value => parseExponent text inLen (pointOf sign whole fraction)
          { value, scale := BitVec.ofInt 64 (places fraction) } := by
  rw [parseDecimal_of_shown nonneg other shown, if_neg room, parseSignificand_of_shown shown]
  exact if_neg some_

theorem mpzSetStr_of_digits (digits : DigitsCopied whole fraction rest) :
    gmp.mpzSetStr (cString (DecimalText.sign sign.negative ++ copied whole fraction rest)) 10 =
      some (copiedNumber sign whole fraction rest) := by
  rw [cString_sign_append, gmp.setStr_decimal _ _ digits.1 digits.2]
  rfl

theorem parseDecimal_of_digits (nonneg : 0 ≤ inLen) (other : ¬ ReadAsInteger text inLen)
    (shown : Shown text inLen sign whole fraction rest) (room : SignFits sign inLen)
    (some_ : ¬ NothingCopied sign whole fraction) (digits : DigitsCopied whole fraction rest) :
    parseDecimal gmp text inLen slot =
      parseExponent text inLen (pointOf sign whole fraction)
        { value := copiedNumber sign whole fraction rest
          scale := BitVec.ofInt 64 (places fraction) } := by
  rw [parseDecimal_of_copied nonneg other shown room some_, mpzSetStr_of_digits digits]

theorem decimalExact_iff_of_denotes {number : ℚ} (denotes : Denotes text number) :
    DecimalExact gmp text slot ↔ ∃ written,
      parseDecimal gmp text (wrapInt text.length) slot = .ok written ∧
        Denotes text written.toRat := by
  constructor
  · intro exact_
    obtain ⟨written, parsed⟩ := exact_.accepts.mpr ⟨number, denotes⟩
    exact ⟨written, parsed, exact_.reads written parsed⟩
  · rintro ⟨written, parsed, reads⟩
    refine ⟨iff_of_true ⟨written, parsed⟩ ⟨number, denotes⟩, ?_, fun none_ =>
      absurd ⟨number, denotes⟩ none_⟩
    intro other otherParsed
    obtain rfl := Parsed.ok.inj (parsed.symm.trans otherParsed)
    exact reads

theorem decimalExact_iff_of_not_denotes (none_ : ¬ ∃ number, Denotes text number) :
    DecimalExact gmp text slot ↔
      ∃ error, parseDecimal gmp text (wrapInt text.length) slot = .exception error slot := by
  constructor
  · exact fun exact_ => exact_.refuses none_
  · rintro ⟨error, parsed⟩
    have notOk (written : Decimal) :
        parseDecimal gmp text (wrapInt text.length) slot ≠ .ok written := by
      rw [parsed]
      exact nofun
    exact ⟨iff_of_false (fun ⟨written, ok⟩ => notOk written ok) none_,
      fun written ok => absurd ok (notOk written), fun _ => ⟨error, parsed⟩⟩

theorem denotes_of_path (path : ReadAsInteger text inLen) {n : Int}
    (literal : Numeral.IsLiteral literalBases text n) : Denotes text n := by
  obtain ⟨sign, body, signed, zero, _⟩ := path
  cases body with
  | nil => exact absurd zero (by decide)
  | cons first rest =>
      obtain rfl : first = '0'.toUInt8 := zero
      exact denotes_of_literal literal signed

/-- A decimal form that is not octal is no number for GMP when it begins with a zero. -/
theorem parseVarint_of_form (reads : gmp.ReadsNumbers) {exponent : Int} {body : List UInt8}
    (signed : Numeral.Signed text sign body) (zero : charAt body 0 = '0'.toUInt8)
    (form : DecimalForm body whole fraction exponent) (noOctal : ¬ OctalText body) :
    parseVarint gmp text = none := by
  obtain ⟨first, behind, rfl, _⟩ := form.head
  obtain rfl : first = '0'.toUInt8 := zero
  have announced : Announced ('0'.toUInt8 :: behind) 0 ('0'.toUInt8 :: behind) := by
    apply Announced.plain
    rintro ⟨_, letter⟩
    cases behind with
    | nil => exact absurd letter (by decide)
    | cons second rest =>
        obtain rfl : second = 'b'.toUInt8 := letter
        exact absurd (form.second rfl) (by decide)
  have noBlank : Gmp.withoutBlanks ('0'.toUInt8 :: behind) = '0'.toUInt8 :: behind :=
    Gmp.withoutBlanks_of_plain fun char member => (form.plain char member).printable.1
  have whole_ : cString ('0'.toUInt8 :: behind) = '0'.toUInt8 :: behind :=
    (cString_eq_self_iff _).mpr fun member => (form.plain 0 member).printable.2 rfl
  rw [parseVarint_announced signed announced, whole_, reads.refuses 0 _ (by decide), Option.map_none]
  rintro ⟨negative, digits, same, kind⟩
  rw [noBlank] at same
  cases negative with
  | true => exact absurd (List.cons.inj same).1 (by decide)
  | false =>
      obtain rfl : '0'.toUInt8 :: behind = digits := same
      rcases kind with ⟨magnitude, inBase⟩ | ⟨_, letter, known, shape⟩
      · generalize shape : '0'.toUInt8 :: behind = digits at inBase
        cases inBase with
        | decimal _ plain => exact plain (by rw [← shape]; rfl)
        | octal bounded => exact noOctal ⟨_, shape, bounded⟩
        | based known =>
            rw [form.second shape] at known
            cases known
      · rw [form.second shape] at known
        cases known

/-- Off the grammar an exception is exact when GMP refuses and the scale was zero. -/
theorem decimalExact_of_path_iff (reads : gmp.ReadsNumbers) (nonneg : 0 ≤ wrapInt text.length)
    (path : ReadAsInteger text (wrapInt text.length)) (none_ : ¬ ∃ number, Denotes text number) :
    DecimalExact gmp text slot ↔ VarintReadable gmp text ∧ slot.scale = 0 := by
  have noLiteral (n : Int) : ¬ Numeral.IsLiteral literalBases text n :=
    fun literal => none_ ⟨n, denotes_of_path path literal⟩
  have refused : VarintReadable gmp text ↔ parseVarint gmp text = none := by
    rw [← varintExact_iff reads]
    constructor
    · intro exact_
      by_contra some_
      obtain ⟨n, parsed⟩ := Option.ne_none_iff_exists'.mp some_
      exact noLiteral n ((exact_ n).mp parsed)
    · intro refused n
      rw [refused]
      exact iff_of_false nofun (noLiteral n)
  rw [decimalExact_iff_of_not_denotes none_, parseDecimal_of_integer nonneg path, refused,
    parseInteger]
  constructor
  · rintro ⟨error, parsed⟩
    split at parsed
    · rename_i none_
      obtain ⟨_, kept⟩ := Parsed.exception.inj parsed
      exact ⟨none_, by rw [← kept]⟩
    · cases parsed
  · rintro ⟨none_, kept⟩
    rw [none_]
    exact ⟨.invalidInteger, by rw [← kept]⟩

theorem decimalExact_of_path (reads : gmp.ReadsNumbers) (nonneg : 0 ≤ wrapInt text.length)
    (path : ReadAsInteger text (wrapInt text.length)) {n : Int}
    (literal : Numeral.IsLiteral literalBases text n) : DecimalExact gmp text slot := by
  have denotes := denotes_of_path path literal
  rw [decimalExact_iff_of_denotes denotes, parseDecimal_of_integer nonneg path]
  refine ⟨{ value := n, scale := 0 }, ?_, ?_⟩
  · rw [parseInteger, parseVarint_of_literal reads literal]
  · have number : Decimal.toRat { value := n, scale := 0 } = n := by
      simp [Decimal.toRat, scaled]
    rw [number]
    exact denotes

theorem isLiteral_of_exact (reads : gmp.ReadsNumbers) (nonneg : 0 ≤ wrapInt text.length)
    (path : ReadAsInteger text (wrapInt text.length)) {number : ℚ} (denotes : Denotes text number)
    (exact_ : DecimalExact gmp text slot) : ∃ n, Numeral.IsLiteral literalBases text n := by
  obtain ⟨sign, body, signed, zero, _⟩ := id path
  obtain ⟨other, rest, otherSigned, forms⟩ := denotes.literal_or_form
  obtain ⟨rfl, rfl⟩ := signed.unique otherSigned
  rcases forms with ⟨magnitude, magnitudeReads, _, _⟩ | ⟨_, _, _, form, noOctal, _⟩
  · exact ⟨_, sign, body, magnitude, signed.eq, magnitudeReads, rfl⟩
  · obtain ⟨written, parsed⟩ := exact_.accepts.mpr ⟨number, denotes⟩
    rw [parseDecimal_of_integer nonneg path, parseInteger,
      parseVarint_of_form reads signed zero form noOctal] at parsed
    cases parsed

theorem inLen_pos_of_inside (inside : (pointOf sign whole fraction : Int) < inLen) :
    SignFits sign inLen := by
  rintro ⟨_, zero⟩
  omega

theorem fraction_eq_none_of_inside (shown : Shown text inLen sign whole fraction rest)
    (inside : (pointOf sign whole fraction : Int) < inLen)
    (digits : DigitsCopied whole fraction rest) : fraction = none := by
  obtain ⟨letter, tail, rfl, marks⟩ := shown.letter_of_inside inside
  cases fraction with
  | none => rfl
  | some fraction =>
      have nonzero : letter ≠ 0 := by
        rcases marks with rfl | rfl
        all_goals decide
      have next : nextByte (some fraction) (letter :: tail) = [letter] := by
        simp [nextByte, cString, nonzero]
      have digit := digits.2 letter (by rw [cString_copied shown, next]; simp)
      rw [not_isDigit_of_exponent marks] at digit
      cases digit

/-- Only a blank behind the fraction, past what is shown, leaves the answer to GMP. -/
theorem blank_of_mayRead (shown : Shown text inLen sign whole fraction rest)
    (some_ : ¬ NothingCopied sign whole fraction) (noDigits : ¬ DigitsCopied whole fraction rest)
    (may : Gmp.MpzMayRead 10
      (cString (DecimalText.sign sign.negative ++ copied whole fraction rest))) :
    ∃ char tail, rest = char :: tail ∧ isSpace char = true := by
  rw [cString_sign_append, cString_copied shown] at may
  rw [DigitsCopied, cString_copied shown] at noDigits
  by_contra! printable
  have noBlank : ∀ char ∈ whole ++ (fraction.getD [] ++ nextByte fraction rest),
      isSpace char = false := by
    refine List.forall_mem_append.mpr ⟨fun char member =>
      not_space_of_printable (shown.wholeDigits char member).printable, ?_⟩
    refine List.forall_mem_append.mpr ⟨fun char member =>
      not_space_of_printable (shown.fractionDigits char member).printable, ?_⟩
    rcases nextByte_eq fraction rest with none_ | ⟨char, tail, _, same, one⟩
    · simp [none_]
    · rw [one, List.forall_mem_singleton]
      exact Bool.eq_false_iff.mpr (printable char tail same)
  obtain ⟨negative, digits, same, kind⟩ := may
  have numeral : digits ≠ [] ∧ DecimalText.AllDigits digits := by
    rcases kind with ⟨magnitude, inBase⟩ | ⟨zero, _⟩
    · exact Numeral.isNumeral_ten_iff.mp inBase.1
    · cases zero
  have minus : ∀ char ∈ DecimalText.sign sign.negative, isSpace char = false := by
    cases sign.negative <;> decide +kernel
  rw [Gmp.withoutBlanks_of_plain (List.forall_mem_append.mpr ⟨minus, noBlank⟩)] at same
  have dash {char : UInt8} (printable : 48 ≤ char.toNat) : '-'.toUInt8 ≠ char := by
    rintro rfl
    exact absurd printable (by decide)
  cases negated : sign.negative <;> cases negative <;> rw [negated] at same
  · obtain rfl : _ = digits := same
    exact noDigits numeral
  · -- the sign would have to be copied from the significand
    have same : whole ++ (fraction.getD [] ++ nextByte fraction rest) = '-'.toUInt8 :: digits :=
      same
    cases whole with
    | cons first others =>
        exact dash (shown.wholeDigits first List.mem_cons_self).printable (List.cons.inj same).1.symm
    | nil =>
        cases behind : fraction.getD [] with
        | cons first others =>
            rw [behind] at same
            have digit := shown.fractionDigits first (by rw [behind]; exact List.mem_cons_self)
            exact dash digit.printable (List.cons.inj same).1.symm
        | nil =>
            rw [behind, List.nil_append, List.nil_append] at same
            rcases nextByte_eq fraction rest with none_ | ⟨char, tail, _, _, one⟩
            · rw [none_] at same
              cases same
            · rw [one] at same
              exact numeral.1 (List.cons.inj same).2.symm
  · have begins : '-'.toUInt8 :: (whole ++ (fraction.getD [] ++ nextByte fraction rest)) = digits :=
      same
    have digit := numeral.2 '-'.toUInt8 (begins ▸ List.mem_cons_self)
    exact absurd digit (by decide)
  · obtain rfl : _ = digits := (List.cons.inj same).2
    exact noDigits numeral

theorem not_blank_of_denotes {number : ℚ} (denotes : Denotes text number) :
    ∀ char ∈ text, isSpace char = false := by
  obtain ⟨sign, rest, signed, forms⟩ := denotes.literal_or_form
  rw [signed.eq]
  refine List.forall_mem_append.mpr ⟨by cases sign <;> simp [Numeral.Sign.text] <;> decide, ?_⟩
  rcases forms with ⟨magnitude, reads, _, _⟩ | ⟨_, _, _, form, _, _⟩
  · have digits {base : Nat} (small : base ≤ 16) {digits : List UInt8}
        (bounded : ∀ char ∈ digits, Numeral.digitValue char < base) :
        ∀ char ∈ digits, isSpace char = false := by
      intro char member
      have bound := bounded char member
      exact not_space_of_printable (Numeral.printable_of_digitValue (by omega))
    cases reads with
    | decimal numeral _ => exact digits (by decide) numeral.bounded
    | octal bounded =>
        exact List.forall_mem_cons.mpr ⟨by decide, digits (by decide) bounded⟩
    | based known numeral =>
        rcases literalBases_eq_some_iff.mp known with ⟨rfl, rfl⟩ | ⟨rfl, rfl⟩
        all_goals
          exact List.forall_mem_cons.mpr ⟨by decide, List.forall_mem_cons.mpr
            ⟨by decide, digits (by decide) numeral.bounded⟩⟩
  · exact fun char member => (form.plain char member).printable.1

/-- An exponent letter behind whole digits of a text in the grammar begins its exponent. -/
theorem exponent_of_denotes {letter : UInt8} {tail : List UInt8} {number : ℚ}
    (other : ¬ ReadAsInteger text inLen) (shown : Shown text inLen sign whole none (letter :: tail))
    (all : DecimalText.AllDigits whole) (marks : ExponentLetter letter)
    (denotes : Denotes text number) : ∃ (power : Numeral.Sign) (digits : List UInt8),
      tail = power.text ++ digits ∧ digits ≠ [] ∧ DecimalText.AllDigits digits := by
  obtain ⟨otherSign, body, signed, forms⟩ := denotes.literal_or_form
  obtain ⟨rfl, rfl⟩ := signed.unique shown.signed
  rcases forms with ⟨magnitude, magnitudeReads, zero, _⟩ | ⟨_, fraction, _, form, _, _⟩
  · have first : charAt (whole ++ (dotted none ++ letter :: tail)) 0 = '0'.toUInt8 := by
      rw [charAt, List.getD_eq_getElem?_getD, ← List.head?_eq_getElem?, zero]
      rfl
    exact absurd ⟨_, _, signed, first, Or.inr ⟨whole, _, shown⟩⟩ other
  · obtain ⟨formTail, same, power⟩ := form.split
    obtain ⟨rfl, behind⟩ := digits_append_inj all form.wholeDigits
      (by
        intro char head
        obtain rfl := Option.some.inj head
        exact not_isDigit_of_exponent marks) (dotted_head power) same
    cases fraction with
    | some fraction =>
        obtain rfl := (List.cons.inj behind).1
        exact absurd marks (by simp [ExponentLetter]; decide)
    | none =>
        obtain rfl : letter :: tail = formTail := behind
        generalize shape : letter :: tail = formTail at power
        cases power with
        | absent => cases shape
        | present _ power nonempty all => exact ⟨power, _, (List.cons.inj shape).2, nonempty, all⟩

theorem toNat_wrapInt_le (text : List UInt8) : (wrapInt text.length).toNat ≤ text.length := by
  have le := @wrapInt_le text.length (by simp only [intMin]; omega)
  omega

theorem places_toInt (shown : Shown text inLen sign whole fraction rest) (small : inLen ≤ intMax) :
    (BitVec.ofInt 64 (places fraction)).toInt = places fraction := by
  have le : places fraction ≤ (dotted fraction).length := by
    cases fraction with
    | none => exact Nat.le_refl 0
    | some fraction => exact Nat.le_succ _
  have sign_le : sign.text.length ≤ 1 := by cases sign <;> decide
  have point : (pointOf sign whole fraction : Int) ≤ intMax := by
    rcases shown.stop with ⟨_, _, _, _, inside⟩ | atEnd
    · omega
    · rw [← atEnd]
      simp only [intMax] at small ⊢
      omega
  rw [pointOf] at point
  simp only [intMax] at point
  rw [BitVec.toInt_ofInt]
  apply Int.bmod_eq_of_le <;> omega

theorem digits_of_not_blank (reads : gmp.ReadsNumbers)
    (shown : Shown text inLen sign whole fraction rest)
    (some_ : ¬ NothingCopied sign whole fraction) {value : Int}
    (set : gmp.mpzSetStr
      (cString (DecimalText.sign sign.negative ++ copied whole fraction rest)) 10 = some value) :
    DigitsCopied whole fraction rest ∨ ∃ char tail, rest = char :: tail ∧ isSpace char = true := by
  by_cases digits : DigitsCopied whole fraction rest
  · exact Or.inl digits
  · right
    apply blank_of_mayRead shown some_ digits
    by_contra other
    rw [reads.refuses 10 _ (by decide) other] at set
    cases set

theorem digits_before_letter (shown : Shown text inLen sign whole none rest)
    (digits : DigitsCopied whole none rest) : whole ≠ [] ∧ DecimalText.AllDigits whole := by
  have all := digits
  rw [DigitsCopied, cString_copied shown] at all
  simpa [nextByte, cString] using all

/-- The digits are read with their exponent, or as all that is shown. -/
theorem readsWell_of_digits (other : ¬ ReadAsInteger text (wrapInt text.length))
    (shown : Shown text (wrapInt text.length) sign whole fraction rest)
    (room : SignFits sign (wrapInt text.length)) (some_ : ¬ NothingCopied sign whole fraction)
    (digits : DigitsCopied whole fraction rest) {written : Decimal}
    (parsed : parseExponent text (wrapInt text.length) (pointOf sign whole fraction)
      { value := copiedNumber sign whole fraction rest
        scale := BitVec.ofInt 64 (places fraction) } = .ok written)
    (denotes : Denotes text written.toRat) : ReadsWell text (wrapInt text.length) := by
  by_cases inside : (pointOf sign whole fraction : Int) < wrapInt text.length
  · obtain rfl := fraction_eq_none_of_inside shown inside digits
    obtain ⟨letter, tail, rfl, marks⟩ := shown.letter_of_inside inside
    obtain ⟨nonempty, all⟩ := digits_before_letter shown digits
    obtain ⟨power, powerDigits, rfl, powerNonempty, powerAll⟩ :=
      exponent_of_denotes other shown all marks denotes
    rw [parseExponent_of_letter shown.signed inside, sscanfInt_exponent power powerNonempty powerAll]
      at parsed
    split at parsed
    · cases parsed
    · rename_i there
      simp only at parsed
      split at parsed
      · rename_i fits
        exact .exponent other shown all nonempty marks powerAll powerNonempty (not_le.mp there) fits
      · cases parsed
  · rw [parseExponent_of_le _ (not_lt.mp inside)] at parsed
    obtain rfl := Parsed.ok.inj parsed
    refine .significand other shown room some_ digits (not_lt.mp inside) ?_
    rwa [Decimal.toRat, places_toInt shown (wrapInt_bounds _).2] at denotes

theorem readsWell_of_exact (reads : gmp.ReadsNumbers) (nonneg : 0 ≤ wrapInt text.length)
    {number : ℚ} (denotes : Denotes text number) (exact_ : DecimalExact gmp text slot) :
    ReadsWell text (wrapInt text.length) := by
  by_cases path : ReadAsInteger text (wrapInt text.length)
  · obtain ⟨n, literal⟩ := isLiteral_of_exact reads nonneg path denotes exact_
    exact .integer path literal
  obtain ⟨written, parsed, denotesWritten⟩ := (decimalExact_iff_of_denotes denotes).mp exact_
  by_cases some_ : ∃ sign whole fraction rest,
      Shown text (wrapInt text.length) sign whole fraction rest
  · obtain ⟨sign, whole, fraction, rest, shown⟩ := some_
    by_cases room : SignFits sign (wrapInt text.length)
    · by_cases nothing : NothingCopied sign whole fraction
      · rw [parseDecimal_of_nothing nonneg path shown nothing] at parsed
        cases parsed
      · rw [parseDecimal_of_copied nonneg path shown room nothing] at parsed
        cases set : gmp.mpzSetStr
            (cString (DecimalText.sign sign.negative ++ copied whole fraction rest)) 10 with
        | none => rw [set] at parsed; cases parsed
        | some value =>
            rcases digits_of_not_blank reads shown nothing set with
              digits | ⟨char, tail, rfl, blank⟩
            · rw [mpzSetStr_of_digits digits] at parsed
              exact readsWell_of_digits path shown room nothing digits parsed denotesWritten
            · have member : char ∈ text := by
                rw [shown.signed.eq]
                simp
              rw [not_blank_of_denotes denotes char member] at blank
              cases blank
    · rw [parseDecimal_of_shown nonneg path shown, if_pos (not_not.mp room)] at parsed
      cases parsed
  · obtain ⟨error, refused⟩ := @parseDecimal_of_not_shown gmp _ _ slot nonneg
      (toNat_wrapInt_le text) path (fun sign whole fraction rest shown =>
        some_ ⟨sign, whole, fraction, rest, shown⟩)
    rw [refused] at parsed
    cases parsed

theorem digitsCopied_of_whole (shown : Shown text inLen sign whole none rest)
    (nonempty : whole ≠ []) (all : DecimalText.AllDigits whole) : DigitsCopied whole none rest := by
  rw [DigitsCopied, cString_copied shown]
  simpa [nextByte, cString] using ⟨nonempty, all⟩

/-- Digits with an exponent are in the grammar, and no octal text. -/
theorem denotes_exponent {power : Numeral.Sign} {letter : UInt8} {digits : List UInt8}
    (signed : Numeral.Signed text sign (whole ++ (dotted none ++ letter :: (power.text ++ digits))))
    (wholeDigits : DecimalText.AllDigits whole) (some_ : whole ≠ [])
    (marks : ExponentLetter letter) (all : DecimalText.AllDigits digits) (nonempty : digits ≠ [])
    (fits : intMin ≤ DecimalText.signed power.negative (DecimalText.toNat digits) ∧
      DecimalText.signed power.negative (DecimalText.toNat digits) ≤ intMax) :
    Denotes text (scaled 10 (DecimalText.signed sign.negative (DecimalText.toNat whole))
      (-DecimalText.signed power.negative (DecimalText.toNat digits))) := by
  have form : DecimalForm (whole ++ (dotted none ++ letter :: (power.text ++ digits))) whole none
      (DecimalText.signed power.negative (DecimalText.toNat digits)) := by
    refine ⟨⟨_, rfl, .present marks power nonempty all⟩, wholeDigits, by simp [DecimalText.AllDigits],
      by simpa using some_, ?_⟩
    simp only [places, Option.getD_none, List.length_nil, longMax, intMin, intMax] at fits ⊢
    omega
  have noOctal : ¬ OctalText (whole ++ (dotted none ++ letter :: (power.text ++ digits))) := by
    rintro ⟨octal, same, bounded⟩
    have letterDigit : 8 ≤ Numeral.digitValue letter := by
      rcases marks with rfl | rfl
      all_goals decide
    cases whole with
    | nil => exact some_ rfl
    | cons first others =>
        have bound := bounded letter (by rw [← (List.cons.inj same).2]; simp)
        omega
  have denotes := Denotes.decimal sign form noOctal
  rw [signed.eq]
  simpa [places] using denotes

theorem exact_of_readsWell (reads : gmp.ReadsNumbers) (nonneg : 0 ≤ wrapInt text.length)
    (well : ReadsWell text (wrapInt text.length)) : DecimalExact gmp text slot := by
  cases well with
  | integer path literal => exact decimalExact_of_path reads nonneg path literal
  | significand other shown room some_ digits atEnd denotes =>
      rw [decimalExact_iff_of_denotes denotes, parseDecimal_of_digits nonneg other shown room some_
        digits, parseExponent_of_le _ atEnd]
      refine ⟨_, rfl, ?_⟩
      rwa [Decimal.toRat, places_toInt shown (wrapInt_bounds _).2]
  | @exponent sign power letter whole digits other shown wholeDigits some_ marks all nonempty inside
      fits =>
      have before : (pointOf sign whole none : Int) < wrapInt text.length := by omega
      have copied_ := digitsCopied_of_whole shown some_ wholeDigits
      have denotes := denotes_exponent shown.signed wholeDigits some_ marks all nonempty fits
      have number : copiedNumber sign whole none (letter :: (power.text ++ digits)) =
          DecimalText.signed sign.negative (DecimalText.toNat whole) := by
        rw [copiedNumber, cString_copied shown]
        simp [nextByte, cString]
      rw [decimalExact_iff_of_denotes denotes, parseDecimal_of_digits nonneg other shown
        (inLen_pos_of_inside before) (fun nothing => some_ nothing.2.1) copied_,
        parseExponent_of_letter shown.signed before, if_neg (not_le.mpr inside),
        sscanfInt_exponent power nonempty all, number]
      simp only [if_pos fits]
      refine ⟨_, rfl, ?_⟩
      have scale : (BitVec.ofInt 64 (places none) -
          BitVec.ofInt 64 (DecimalText.signed power.negative (DecimalText.toNat digits))).toInt =
            -DecimalText.signed power.negative (DecimalText.toNat digits) := by
        have zero : BitVec.ofInt 64 (places none) = 0#64 := rfl
        rw [zero, BitVec.zero_sub, ← BitVec.ofInt_neg, BitVec.toInt_ofInt]
        simp only [intMin, intMax] at fits
        apply Int.bmod_eq_of_le <;> omega
      rw [Decimal.toRat, scale]
      exact denotes

theorem not_inside_of_blank (shown : Shown text inLen sign whole fraction rest)
    (blank : ∃ char tail, rest = char :: tail ∧ isSpace char = true) :
    ¬ (pointOf sign whole fraction : Int) < inLen := by
  intro inside
  obtain ⟨char, tail, rfl, space⟩ := blank
  obtain ⟨letter, _, same, marks⟩ := shown.letter_of_inside inside
  obtain rfl := (List.cons.inj same).1
  rcases marks with rfl | rfl
  all_goals exact absurd space (by decide)

theorem refusesWell_of_digits (other : ¬ ReadAsInteger text inLen)
    (shown : Shown text inLen sign whole fraction rest) (digits : DigitsCopied whole fraction rest)
    {error : DecimalError}
    (parsed : parseExponent text inLen (pointOf sign whole fraction)
      { value := copiedNumber sign whole fraction rest
        scale := BitVec.ofInt 64 (places fraction) } = .exception error slot) :
    RefusesWell gmp text inLen slot := by
  by_cases inside : (pointOf sign whole fraction : Int) < inLen
  · obtain rfl := fraction_eq_none_of_inside shown inside digits
    obtain ⟨letter, tail, rfl, marks⟩ := shown.letter_of_inside inside
    rw [parseExponent_of_letter shown.signed inside] at parsed
    split at parsed
    · rename_i missing
      exact .exponent other shown digits inside (Or.inl missing) (Parsed.exception.inj parsed).2.symm
    · split at parsed
      · rename_i failed
        exact .exponent other shown digits inside
          (Or.inr ((sscanfInt_eq_matchingFailure_iff _).mp failed))
          (Parsed.exception.inj parsed).2.symm
      · cases parsed
      · split at parsed <;> cases parsed
  · rw [parseExponent_of_le _ (not_lt.mp inside)] at parsed
    cases parsed

theorem refusesWell_of_exact (reads : gmp.ReadsNumbers) (nonneg : 0 ≤ wrapInt text.length)
    (none_ : ¬ ∃ number, Denotes text number) (exact_ : DecimalExact gmp text slot) :
    RefusesWell gmp text (wrapInt text.length) slot := by
  by_cases path : ReadAsInteger text (wrapInt text.length)
  · obtain ⟨readable, kept⟩ := (decimalExact_of_path_iff reads nonneg path none_).mp exact_
    exact .integer path readable kept
  obtain ⟨error, parsed⟩ := (decimalExact_iff_of_not_denotes none_).mp exact_
  by_cases some_ : ∃ sign whole fraction rest,
      Shown text (wrapInt text.length) sign whole fraction rest
  · obtain ⟨sign, whole, fraction, rest, shown⟩ := some_
    by_cases room : SignFits sign (wrapInt text.length)
    · by_cases nothing : NothingCopied sign whole fraction
      · rw [parseDecimal_of_nothing nonneg path shown nothing] at parsed
        have kept := (Parsed.exception.inj parsed).2
        exact .nothing path shown nothing (by rw [← kept])
      · rw [parseDecimal_of_copied nonneg path shown room nothing] at parsed
        cases set : gmp.mpzSetStr
            (cString (DecimalText.sign sign.negative ++ copied whole fraction rest)) 10 with
        | none =>
            rw [set] at parsed
            have kept := (Parsed.exception.inj parsed).2
            by_cases digits : DigitsCopied whole fraction rest
            · rw [mpzSetStr_of_digits digits] at set
              cases set
            · exact .significand path shown room nothing digits (fun _ => set) (by rw [← kept])
        | some value =>
            rw [set] at parsed
            rcases digits_of_not_blank reads shown nothing set with digits | blank
            · rw [mpzSetStr_of_digits digits] at set
              obtain rfl := Option.some.inj set
              exact refusesWell_of_digits path shown digits parsed
            · have ended := not_lt.mp (not_inside_of_blank shown blank)
              cases (parseExponent_of_le text ended _).symm.trans parsed
    · rw [parseDecimal_of_shown nonneg path shown, if_pos (not_not.mp room)] at parsed
      cases parsed
  · exact .character path fun sign whole fraction rest shown =>
      some_ ⟨sign, whole, fraction, rest, shown⟩

theorem exact_of_refusesWell (reads : gmp.ReadsNumbers) (nonneg : 0 ≤ wrapInt text.length)
    (none_ : ¬ ∃ number, Denotes text number)
    (well : RefusesWell gmp text (wrapInt text.length) slot) : DecimalExact gmp text slot := by
  cases well with
  | integer path readable kept =>
      exact (decimalExact_of_path_iff reads nonneg path none_).mpr ⟨readable, kept⟩
  | character other notShown =>
      rw [decimalExact_iff_of_not_denotes none_]
      exact parseDecimal_of_not_shown nonneg (toNat_wrapInt_le text) other notShown
  | nothing other shown nothing kept =>
      rw [decimalExact_iff_of_not_denotes none_, parseDecimal_of_nothing nonneg other shown nothing]
      exact ⟨_, by rw [← kept]⟩
  | @significand sign whole fraction rest other shown room some_ noDigits blank kept =>
      have refused : gmp.mpzSetStr
          (cString (DecimalText.sign sign.negative ++ copied whole fraction rest)) 10 = none := by
        by_cases may : Gmp.MpzMayRead 10
            (cString (DecimalText.sign sign.negative ++ copied whole fraction rest))
        · exact blank may
        · exact reads.refuses 10 _ (by decide) may
      rw [decimalExact_iff_of_not_denotes none_,
        parseDecimal_of_copied nonneg other shown room some_, refused]
      exact ⟨_, by rw [← kept]⟩
  | exponent other shown digits inside missing kept =>
      have some_ := (digits_before_letter shown digits).1
      rw [decimalExact_iff_of_not_denotes none_, parseDecimal_of_digits nonneg other shown
        (inLen_pos_of_inside inside) (fun nothing => some_ nothing.2.1) digits,
        parseExponent_of_letter shown.signed inside]
      have same : slot = { value := copiedNumber _ _ none _, scale := BitVec.ofInt 64 (places none) } :=
        kept
      split
      · exact ⟨_, by rw [← same]⟩
      · rename_i there
        rw [(sscanfInt_eq_matchingFailure_iff _).mpr (missing.resolve_left there)]
        exact ⟨_, by rw [← same]⟩

end

def DecimalReadable (gmp : Gmp) (text : List UInt8) (slot : Decimal) : Prop :=
  0 ≤ wrapInt text.length ∧
    ((∃ number, Denotes text number) → ReadsWell text (wrapInt text.length)) ∧
    ((¬ ∃ number, Denotes text number) → RefusesWell gmp text (wrapInt text.length) slot)

theorem nonneg_of_exact {gmp : Gmp} {text : List UInt8} {slot : Decimal}
    (exact_ : DecimalExact gmp text slot) : 0 ≤ wrapInt text.length := by
  by_contra negative
  have undefined : parseDecimal gmp text (wrapInt text.length) slot = .undefined := by
    rw [parseDecimal, if_pos (not_le.mp negative)]
  by_cases some_ : ∃ number, Denotes text number
  · obtain ⟨written, parsed⟩ := exact_.accepts.mpr some_
    rw [undefined] at parsed
    cases parsed
  · obtain ⟨error, parsed⟩ := exact_.refuses some_
    rw [undefined] at parsed
    cases parsed

/-- The decimal parser is exact on the readable texts and on no others. -/
theorem decimal_parser_exact_iff {gmp : Gmp} (reads : gmp.ReadsNumbers) (text : List UInt8)
    (slot : Decimal) : DecimalExact gmp text slot ↔ DecimalReadable gmp text slot := by
  constructor
  · intro exact_
    have nonneg := nonneg_of_exact exact_
    exact ⟨nonneg, fun ⟨_, denotes⟩ => readsWell_of_exact reads nonneg denotes exact_,
      fun none_ => refusesWell_of_exact reads nonneg none_ exact_⟩
  · rintro ⟨nonneg, well, refuses⟩
    by_cases some_ : ∃ number, Denotes text number
    · exact exact_of_readsWell reads nonneg (well some_)
    · exact exact_of_refusesWell reads nonneg some_ (refuses some_)

/-- A number without an exponent is read, whatever the object holds. -/
theorem readable_of_plain {gmp : Gmp} {text whole : List UInt8} {sign : Numeral.Sign}
    {fraction : Option (List UInt8)}
    (signed : Numeral.Signed text sign (whole ++ (dotted fraction ++ [])))
    (wholeDigits : DecimalText.AllDigits whole)
    (fractionDigits : DecimalText.AllDigits (fraction.getD []))
    (nonempty : whole ++ fraction.getD [] ≠ []) (short : (text.length : Int) ≤ intMax)
    (other : ¬ ReadAsInteger text text.length) (slot : Decimal) : DecimalReadable gmp text slot := by
  have significandDigit {char : UInt8} (digit : DecimalText.isDigit char = true) :
      SignificandDigit char := by
    refine ⟨by simp [isXDigit, digit], fun marks => ?_⟩
    rw [not_isDigit_of_exponent marks] at digit
    cases digit
  have total := congrArg List.length signed.eq
  rw [List.append_nil, List.length_append, List.length_append] at total
  have shown : Shown text text.length sign whole fraction [] := by
    refine ⟨signed, fun char member => significandDigit (wholeDigits char member),
      fun char member => significandDigit (fractionDigits char member), Or.inr ?_⟩
    rw [pointOf]
    omega
  have digits : cString (copied whole fraction []) = whole ++ fraction.getD [] := by
    have next : nextByte fraction [] = [] := by cases fraction <;> rfl
    rw [cString_copied shown, next, List.append_nil]
  have all : DecimalText.AllDigits (whole ++ fraction.getD []) :=
    List.forall_mem_append.mpr ⟨wholeDigits, fractionDigits⟩
  have few : places fraction ≤ text.length := by
    have le : places fraction ≤ (dotted fraction).length := by
      cases fraction with
      | none => exact Nat.le_refl 0
      | some fraction => exact Nat.le_succ _
    omega
  have form : DecimalForm (whole ++ (dotted fraction ++ [])) whole fraction 0 := by
    refine ⟨⟨[], rfl, .absent⟩, wholeDigits, fractionDigits, nonempty, ?_⟩
    simp only [intMax, longMax] at short ⊢
    omega
  have noOctal : ¬ OctalText (whole ++ (dotted fraction ++ [])) := by
    rintro ⟨octal, same, bounded⟩
    cases fraction with
    | none => exact other ⟨sign, _, signed, by rw [same]; rfl, Or.inr ⟨whole, [], shown⟩⟩
    | some fraction =>
        have dot : '.'.toUInt8 ∈ '0'.toUInt8 :: octal := by
          rw [← same]
          simp [dotted]
        rcases List.mem_cons.mp dot with zero | member
        · exact absurd zero (by decide)
        · exact absurd (bounded _ member) (by decide)
  have denotes := Denotes.decimal sign form noOctal
  rw [← signed.eq, Int.sub_zero] at denotes
  have same : wrapInt text.length = text.length :=
    wrapInt_of_range (by simp only [intMin]; omega) short
  rw [DecimalReadable, same]
  refine ⟨by omega, fun _ => ?_, fun none_ => absurd ⟨_, denotes⟩ none_⟩
  refine .significand other shown ?_ ?_ ?_ ?_ ?_
  · rintro ⟨negative, zero⟩
    exact nonempty (by
      have empty : whole = [] ∧ dotted fraction = [] := by
        constructor <;> (rw [← List.length_eq_zero_iff]; omega)
      cases fraction with
      | none => rw [empty.1]; rfl
      | some fraction => cases empty.2)
  · rintro ⟨_, empty, zero⟩
    rw [places, List.length_eq_zero_iff] at zero
    exact nonempty (by rw [empty, zero]; rfl)
  · rw [DigitsCopied, digits]
    exact ⟨nonempty, all⟩
  · rw [pointOf]
    omega
  · rw [copiedNumber, digits]
    exact denotes

theorem nine_and_a_half_is_read :
    DecimalExact Gmp.reference (ascii "9.5") { value := 0, scale := 0 } := by
  have signed : Numeral.Signed (ascii "9.5") .none
      (ascii "9" ++ (dotted (some (ascii "5")) ++ [])) :=
    Numeral.signed_of_digit .none ⟨_, _, rfl, by decide⟩
  apply (decimal_parser_exact_iff Gmp.reference_readsNumbers _ _).mpr
  apply readable_of_plain signed (by decide +kernel) (by decide +kernel) (by decide) (by decide)
  rintro ⟨_, _, otherSigned, zero, _⟩
  obtain ⟨rfl, rfl⟩ := signed.unique otherSigned
  exact absurd zero (by decide)

/-- `1.5e3` is refused, and the scale is written before. -/
theorem fraction_with_exponent_is_refused :
    Denotes (ascii "1.5e3") 1500 ∧
      parseDecimal Gmp.reference (ascii "1.5e3") 5 { value := 0, scale := 0 } =
        .exception (.integerPart (ascii "15e")) { value := 0, scale := 1 } ∧
      ¬ DecimalExact Gmp.reference (ascii "1.5e3") { value := 0, scale := 0 } := by
  have refused : parseDecimal Gmp.reference (ascii "1.5e3") 5 { value := 0, scale := 0 } =
      .exception (.integerPart (ascii "15e")) { value := 0, scale := 1 } := by
    decide +kernel
  have form : DecimalForm (ascii "1.5e3") (ascii "1") (some (ascii "5")) 3 :=
    { split := ⟨ascii "e3", by decide, .present (by decide) .none (by decide) (by decide +kernel)⟩
      wholeDigits := by decide +kernel
      fractionDigits := by decide +kernel
      nonempty := by decide
      fits := by decide }
  have denotes : Denotes (ascii "1.5e3") 1500 := by
    have number := Denotes.decimal .none form (by
      rintro ⟨_, same, _⟩
      exact absurd (List.cons.inj same).1 (by decide))
    have value : scaled (10 : ℚ) (DecimalText.signed Numeral.Sign.none.negative
        (DecimalText.toNat (ascii "1" ++ (some (ascii "5")).getD []))) 
        (places (some (ascii "5")) - 3) = 1500 := by
      decide +kernel
    rw [value] at number
    exact number
  refine ⟨denotes, refused, ?_⟩
  intro exact_
  obtain ⟨written, parsed⟩ := exact_.accepts.mpr ⟨1500, denotes⟩
  have length : wrapInt (ascii "1.5e3").length = 5 := by decide
  rw [length, refused] at parsed
  cases parsed

end PhpDriver
