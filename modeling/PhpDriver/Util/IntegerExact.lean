import PhpDriver.Util.DecimalFormat
import PhpDriver.Util.IntegerRead

namespace PhpDriver

open Data

/-! Which texts the integer parsers of `util/math.c` read, and as what. -/

def literalBases (letter : UInt8) : Option Nat :=
  if letter = 'x'.toUInt8 then some 16
  else if letter = 'b'.toUInt8 then some 2
  else none

/-! How the parsers divide a text: a sign, `0b`, blanks and another sign, and what follows. -/

inductive Announced : List UInt8 → Nat → List UInt8 → Prop
  | binary (behind : List UInt8) :
      Announced ('0'.toUInt8 :: 'b'.toUInt8 :: behind) 2 behind
  | plain {rest : List UInt8}
      (other : ¬ (charAt rest 0 = '0'.toUInt8 ∧ charAt rest 1 = 'b'.toUInt8)) :
      Announced rest 0 rest

structure Blanks (behind blanks tail : List UInt8) : Prop where
  eq : behind = blanks ++ tail
  blank : ∀ char ∈ blanks, isSpace char = true
  stop : ∀ char, tail.head? = some char → isSpace char = false

def Divided (input : List UInt8) (sign again : Numeral.Sign) (base before : Nat)
    (text : List UInt8) : Prop :=
  ∃ rest behind blanks tail, Numeral.Signed input sign rest ∧ Announced rest base behind ∧
    Blanks behind blanks tail ∧ Numeral.Signed tail again text ∧
    before = sign.text.length + base + (blanks.length + again.text.length)

def ReadUpTo (input : List UInt8) (consumed : Nat) (sign again : Numeral.Sign)
    (magnitude : Nat) : Prop :=
  ∃ base before text number, Divided input sign again base before text ∧
    LongestNumber base text number magnitude ∧ consumed = before + number.length

/-- The magnitude as it is after the second sign and the narrowing. -/
def wrapped (width : Nat) (again : Numeral.Sign) (magnitude : Nat) : Nat :=
  (if again.negative then (2 ^ 64 - magnitude) % 2 ^ 64 else magnitude) % 2 ^ width

section

variable {input rest behind text : List UInt8} {sign again : Numeral.Sign} {base before : Nat}

theorem exists_announced (rest : List UInt8) : ∃ base behind, Announced rest base behind := by
  by_cases binary : charAt rest 0 = '0'.toUInt8 ∧ charAt rest 1 = 'b'.toUInt8
  · match rest, binary with
    | [], binary => exact absurd binary.1 (by decide)
    | [_], binary => exact absurd (show (0 : UInt8) = 'b'.toUInt8 from binary.2) (by decide)
    | first :: second :: behind, binary =>
        obtain ⟨rfl, rfl⟩ : first = '0'.toUInt8 ∧ second = 'b'.toUInt8 := binary
        exact ⟨2, behind, .binary behind⟩
  · exact ⟨0, rest, .plain binary⟩

theorem Announced.unique {other : Nat} {otherBehind : List UInt8}
    (announced : Announced rest base behind) (again : Announced rest other otherBehind) :
    base = other ∧ behind = otherBehind := by
  cases announced with
  | binary =>
      cases again with
      | binary => exact ⟨rfl, rfl⟩
      | plain different => exact absurd ⟨rfl, rfl⟩ different
  | plain different =>
      cases again with
      | binary => exact absurd ⟨rfl, rfl⟩ different
      | plain => exact ⟨rfl, rfl⟩

theorem exists_blanks (behind : List UInt8) : ∃ blanks tail, Blanks behind blanks tail := by
  refine ⟨behind.takeWhile isSpace, behind.dropWhile isSpace, List.takeWhile_append_dropWhile.symm,
    fun _ member => List.mem_takeWhile_imp member, ?_⟩
  intro char head
  have stopped := List.head?_dropWhile_not isSpace behind
  rw [head] at stopped
  exact stopped

theorem Blanks.takeWhile_eq {blanks tail : List UInt8} (divided : Blanks behind blanks tail) :
    behind.takeWhile isSpace = blanks := by
  rw [divided.eq]
  exact takeWhile_length_append divided.blank divided.stop

theorem Blanks.unique {first second left right : List UInt8} (one : Blanks behind first left)
    (other : Blanks behind second right) : first = second ∧ left = right := by
  obtain rfl : first = second := one.takeWhile_eq.symm.trans other.takeWhile_eq
  exact ⟨rfl, List.append_cancel_left (one.eq.symm.trans other.eq)⟩

theorem exists_divided (input : List UInt8) :
    ∃ sign again base before text, Divided input sign again base before text := by
  obtain ⟨sign, rest, signed⟩ := Numeral.exists_signed input
  obtain ⟨base, behind, announced⟩ := exists_announced rest
  obtain ⟨blanks, tail, divided⟩ := exists_blanks behind
  obtain ⟨again, text, againSigned⟩ := Numeral.exists_signed tail
  exact ⟨sign, again, base, _, text,
    rest, behind, blanks, tail, signed, announced, divided, againSigned, rfl⟩

theorem Divided.unique {otherSign otherAgain : Numeral.Sign} {otherBase otherBefore : Nat}
    {otherText : List UInt8} (one : Divided input sign again base before text)
    (other : Divided input otherSign otherAgain otherBase otherBefore otherText) :
    sign = otherSign ∧ again = otherAgain ∧ base = otherBase ∧ before = otherBefore ∧
      text = otherText := by
  obtain ⟨rest, behind, blanks, tail, signed, announced, divided, againSigned, rfl⟩ := one
  obtain ⟨_, _, _, _, otherSigned, otherAnnounced, otherDivided, otherAgainSigned, rfl⟩ := other
  obtain ⟨rfl, rfl⟩ := signed.unique otherSigned
  obtain ⟨rfl, rfl⟩ := announced.unique otherAnnounced
  obtain ⟨rfl, rfl⟩ := divided.unique otherDivided
  obtain ⟨rfl, rfl⟩ := againSigned.unique otherAgainSigned
  exact ⟨rfl, rfl, rfl, rfl, rfl⟩

theorem charAt_append_length (left right : List UInt8) (index : Nat) :
    charAt (left ++ right) (left.length + index) = charAt right index := by
  simp [charAt, List.getElem?_append_right]

theorem prepareStringConversion_signed (signed : Numeral.Signed input sign rest)
    (announced : Announced rest base behind) :
    prepareStringConversion input = (base, sign.text.length + base, sign.negative) := by
  obtain ⟨minus, any⟩ := charAt_signed signed
  rw [minus] at any
  have point : (if charAt input 0 = '+'.toUInt8 ∨ sign.negative = true then 1 else 0) =
      sign.text.length := by
    split
    · rename_i some
      exact (any.mp some.symm).symm
    · rename_i none
      have length : sign.text.length ≠ 1 := fun one => none (any.mpr one).symm
      cases sign with
      | none => rfl
      | _ => exact absurd rfl length
  have first : charAt input sign.text.length = charAt rest 0 := by
    rw [signed.eq]
    exact charAt_append_length sign.text rest 0
  have second : charAt input (sign.text.length + 1) = charAt rest 1 := by
    rw [signed.eq]
    exact charAt_append_length sign.text rest 1
  simp only [prepareStringConversion, minus, Bool.decide_eq_true, point, first, second]
  cases announced with
  | binary => exact if_pos ⟨rfl, rfl⟩
  | plain other => exact if_neg other

theorem Announced.drop_eq (announced : Announced rest base behind) : rest.drop base = behind := by
  cases announced <;> rfl

theorem Announced.base_eq (announced : Announced rest base behind) : base = 0 ∨ base = 2 := by
  cases announced with
  | binary => exact Or.inr rfl
  | plain => exact Or.inl rfl

/-- What the parsers are left with: the number behind the second sign. -/
theorem parseFixed_divided (width : Nat) (inLen : Int)
    (divided : Divided input sign again base before text) :
    ∃ pos inner, before = pos + inner ∧ (base = 0 ∨ base = 2) ∧
      parseFixed width input inLen =
        (let converted := convertNumber base inner again.negative text
        let temp := converted.value % 2 ^ width
        if converted.outOfRange ∨ fixedLimit width sign.negative < temp then .error .range
        else if converted.length = 0 then .error .invalidNumber
        else if ((pos + converted.length : Nat) : Int) ≠ inLen then .error .invalidCharacters
        else .ok (DecimalText.signed sign.negative temp)) := by
  obtain ⟨rest, behind, blanks, tail, signed, announced, separated, againSigned, rfl⟩ := divided
  have dropped : input.drop (sign.text.length + base) = blanks ++ tail := by
    rw [signed.eq, ← List.drop_drop, List.drop_left, announced.drop_eq, separated.eq]
  refine ⟨_, _, rfl, announced.base_eq, ?_⟩
  simp only [parseFixed, prepareStringConversion_signed signed announced, dropped,
    strtoull_eq separated.blank separated.stop againSigned]
  rfl

theorem parseFixed_of_none (width : Nat) (inLen : Int)
    (divided : Divided input sign again base before text)
    (none : ∀ number magnitude, ¬ LongestNumber base text number magnitude) :
    parseFixed width input inLen = .error .invalidNumber := by
  obtain ⟨pos, inner, rfl, known, parsed⟩ := parseFixed_divided width inLen divided
  rcases convertNumber_cases known inner again.negative text with
    ⟨_, converted⟩ | ⟨number, magnitude, longest, _⟩
  · rw [parsed, converted]
    simp
  · exact absurd longest (none number magnitude)

theorem parseFixed_of_longest (width : Nat) (inLen : Int)
    (divided : Divided input sign again base before text) {number : List UInt8} {magnitude : Nat}
    (longest : LongestNumber base text number magnitude) :
    parseFixed width input inLen =
      if 2 ^ 64 ≤ magnitude ∨ fixedLimit width sign.negative < wrapped width again magnitude then
        .error .range
      else if ((before + number.length : Nat) : Int) ≠ inLen then .error .invalidCharacters
      else .ok (DecimalText.signed sign.negative (wrapped width again magnitude)) := by
  obtain ⟨pos, inner, rfl, known, parsed⟩ := parseFixed_divided width inLen divided
  rcases convertNumber_cases known inner again.negative text with
    ⟨none, _⟩ | ⟨other, value, otherLongest, converted⟩
  · exact absurd longest (none number magnitude)
  · obtain ⟨rfl, rfl⟩ := longest.unique otherLongest
    have positive := List.length_pos_iff.mpr (ne_nil_of_inBase longest.inBase)
    rw [parsed, converted]
    by_cases large : 2 ^ 64 ≤ magnitude
    · simp only [large, decide_true, true_or, if_true]
    · simp only [large, decide_false, if_false, Bool.false_eq_true, false_or, wrapped,
        Nat.add_assoc, if_neg (show ¬ inner + number.length = 0 by omega)]

/-- A reading that ends where the length says gives the number, unless it is out of range. -/
theorem parseFixed_eq_ok_iff {width : Nat} {inLen n : Int} :
    parseFixed width input inLen = .ok n ↔
      ∃ consumed sign again magnitude, ReadUpTo input consumed sign again magnitude ∧
        (consumed : Int) = inLen ∧
        ¬ (2 ^ 64 ≤ magnitude ∨ fixedLimit width sign.negative < wrapped width again magnitude) ∧
        n = DecimalText.signed sign.negative (wrapped width again magnitude) := by
  constructor
  · intro parsed
    obtain ⟨sign, again, base, before, text, divided⟩ := exists_divided input
    by_cases some : ∃ number magnitude, LongestNumber base text number magnitude
    · obtain ⟨number, magnitude, longest⟩ := some
      rw [parseFixed_of_longest width inLen divided longest] at parsed
      split at parsed
      · cases parsed
      · rename_i fits
        split at parsed
        · cases parsed
        · rename_i whole
          exact ⟨_, sign, again, magnitude, ⟨base, before, text, number, divided, longest, rfl⟩,
            Decidable.not_not.mp whole, fits, (Except.ok.inj parsed).symm⟩
    · rw [parseFixed_of_none width inLen divided fun number magnitude longest =>
        some ⟨number, magnitude, longest⟩] at parsed
      cases parsed
  · rintro ⟨_, sign, again, magnitude, ⟨base, before, text, number, divided, longest, rfl⟩, whole,
      fits, rfl⟩
    rw [parseFixed_of_longest width inLen divided longest, if_neg fits,
      if_neg (not_not_intro whole)]

theorem ReadUpTo.unique {consumed other : Nat} {otherSign otherAgain : Numeral.Sign}
    {magnitude otherMagnitude : Nat} (one : ReadUpTo input consumed sign again magnitude)
    (second : ReadUpTo input other otherSign otherAgain otherMagnitude) :
    consumed = other ∧ sign = otherSign ∧ again = otherAgain ∧ magnitude = otherMagnitude := by
  obtain ⟨_, _, _, _, divided, longest, rfl⟩ := one
  obtain ⟨_, _, _, _, otherDivided, otherLongest, rfl⟩ := second
  obtain ⟨rfl, rfl, rfl, rfl, rfl⟩ := divided.unique otherDivided
  obtain ⟨rfl, rfl⟩ := longest.unique otherLongest
  exact ⟨rfl, rfl, rfl, rfl⟩

theorem literalBases_eq_some_iff {letter : UInt8} :
    literalBases letter = some base ↔
      letter = 'x'.toUInt8 ∧ base = 16 ∨ letter = 'b'.toUInt8 ∧ base = 2 := by
  have different : 'b'.toUInt8 ≠ 'x'.toUInt8 := by decide
  rw [literalBases]
  split
  · rename_i hex
    simp only [hex, Option.some.injEq, different.symm, true_and, false_and, or_false]
    exact eq_comm
  · rename_i noHex
    split
    · rename_i binary
      simp only [binary, Option.some.injEq, different, true_and, false_and, false_or]
      exact eq_comm
    · rename_i noBinary
      simp [noHex, noBinary]

theorem eight_le_of_literalBases (letter : UInt8) (base : Nat)
    (known : literalBases letter = some base) : 8 ≤ Numeral.digitValue letter := by
  rcases literalBases_eq_some_iff.mp known with ⟨rfl, _⟩ | ⟨rfl, _⟩
  all_goals decide

/-- A literal announces its base; what is behind the prefix is a number for the library. -/
theorem announced_of_literal {number : List UInt8} {magnitude : Nat}
    (reads : Numeral.Magnitude literalBases number magnitude) :
    ∃ base behind, Announced number base behind ∧
      Numeral.InBase strtoullBases base behind magnitude ∧ number.length = base + behind.length := by
  cases reads with
  | decimal numeral plain =>
      refine ⟨0, number, .plain ?_, .decimal numeral plain, (Nat.zero_add _).symm⟩
      rintro ⟨zero, _⟩
      cases number with
      | nil => exact absurd zero (by decide)
      | cons first rest => exact plain (congrArg some zero)
  | @octal digits bounded =>
      refine ⟨0, _, .plain ?_, .octal bounded, (Nat.zero_add _).symm⟩
      rintro ⟨_, letter⟩
      cases digits with
      | nil => exact absurd letter (by decide)
      | cons first rest =>
          obtain rfl : first = 'b'.toUInt8 := letter
          exact absurd (bounded _ List.mem_cons_self) (by decide)
  | @based letter b digits known numeral =>
      rcases literalBases_eq_some_iff.mp known with ⟨rfl, rfl⟩ | ⟨rfl, rfl⟩
      · refine ⟨0, _, .plain ?_, @Numeral.Magnitude.based strtoullBases _ 16 _ rfl numeral, (Nat.zero_add _).symm⟩
        rintro ⟨_, letter⟩
        exact absurd (show 'x'.toUInt8 = 'b'.toUInt8 from letter) (by decide)
      · exact ⟨2, digits, .binary digits, ⟨numeral, rfl⟩, by
          simp only [List.length_cons]
          omega⟩

theorem head_of_inBase (known : base = 0 ∨ base = 2) {number : List UInt8} {magnitude : Nat}
    (inBase : Numeral.InBase strtoullBases base number magnitude) :
    ∃ first rest, number = first :: rest ∧ DecimalText.isDigit first = true := by
  rcases known with rfl | rfl
  · exact Numeral.Magnitude.head inBase
  · obtain ⟨numeral, _⟩ := inBase
    cases number with
    | nil => exact absurd rfl numeral.nonempty
    | cons first rest =>
        have bound := numeral.bounded first List.mem_cons_self
        exact ⟨first, rest, rfl, Numeral.digitValue_lt_ten_iff.mp (by omega)⟩

theorem longest_of_literal {number : List UInt8} {magnitude : Nat}
    (reads : Numeral.Magnitude literalBases number magnitude) (sign : Numeral.Sign) :
    ∃ base before text, Divided (sign.text ++ number) sign .none base before text ∧
      LongestNumber base text text magnitude ∧
      before + text.length = (sign.text ++ number).length := by
  obtain ⟨base, behind, announced, inBase, length⟩ := announced_of_literal reads
  have digit := head_of_inBase announced.base_eq inBase
  have signed := Numeral.signed_of_digit sign reads.head
  have unsigned := Numeral.signed_of_digit .none digit
  have noBlank : Blanks behind [] behind := by
    refine ⟨rfl, by simp, ?_⟩
    intro char head
    obtain ⟨first, rest, rfl, digit⟩ := digit
    obtain rfl := Option.some.inj head
    exact isSpace_of_digit digit
  refine ⟨base, _, behind,
    ⟨number, behind, [], behind, signed, announced, noBlank, unsigned, rfl⟩,
    ⟨List.prefix_rfl, inBase, fun _ _ begins _ => begins⟩, ?_⟩
  rw [List.length_append, length]
  simp only [Numeral.Sign.text, List.length_nil]
  omega

theorem reading_of_literal {number : List UInt8} {magnitude : Nat}
    (reads : Numeral.Magnitude literalBases number magnitude) (sign : Numeral.Sign) :
    ReadUpTo (sign.text ++ number) (sign.text ++ number).length sign .none magnitude := by
  obtain ⟨base, before, text, divided, longest, length⟩ := longest_of_literal reads sign
  exact ⟨base, before, text, text, divided, longest, length.symm⟩

theorem parseFixed_of_magnitude (width : Nat) {number : List UInt8} {magnitude : Nat}
    (reads : Numeral.Magnitude literalBases number magnitude) (sign : Numeral.Sign) (inLen : Int) :
    parseFixed width (sign.text ++ number) inLen =
      if 2 ^ 64 ≤ magnitude ∨ fixedLimit width sign.negative < magnitude % 2 ^ width then
        .error .range
      else if ((sign.text ++ number).length : Int) ≠ inLen then .error .invalidCharacters
      else .ok (DecimalText.signed sign.negative (magnitude % 2 ^ width)) := by
  obtain ⟨base, before, text, divided, longest, length⟩ := longest_of_literal reads sign
  rw [parseFixed_of_longest width inLen divided longest, length]
  rfl

theorem fits_signed_iff {width : Nat} (negative : Bool) (magnitude : Nat) :
    Fits width (DecimalText.signed negative magnitude) ↔ magnitude ≤ fixedLimit width negative := by
  have positive : 0 < 2 ^ (width - 1) := Nat.two_pow_pos _
  have cast : ((2 ^ (width - 1) : Nat) : Int) = 2 ^ (width - 1) := by push_cast; rfl
  cases negative with
  | true =>
      simp only [Fits, DecimalText.signed, fixedLimit, if_true, ← cast]
      omega
  | false =>
      simp only [Fits, DecimalText.signed, fixedLimit, Bool.false_eq_true, if_false, ← cast]
      omega

theorem wrapped_of_le {width magnitude : Nat} {negative : Bool} (positive : 0 < width)
    (small : magnitude ≤ fixedLimit width negative) : wrapped width .none magnitude = magnitude := by
  have double : 2 ^ width = 2 * 2 ^ (width - 1) := by
    rw [← pow_succ']
    congr
    omega
  have bound : 0 < 2 ^ (width - 1) := Nat.two_pow_pos _
  rw [wrapped]
  apply Nat.mod_eq_of_lt
  simp only [Numeral.Sign.negative, Bool.false_eq_true, if_false]
  rw [fixedLimit] at small
  split at small <;> omega

theorem lt_two_pow_of_le {width magnitude : Nat} {negative : Bool} (positive : 0 < width)
    (narrow : width ≤ 64) (small : magnitude ≤ fixedLimit width negative) : magnitude < 2 ^ 64 := by
  have bound : 2 ^ (width - 1) ≤ 2 ^ 63 := Nat.pow_le_pow_right (by decide) (by omega)
  rw [fixedLimit] at small
  split at small <;> omega

theorem parseFixed_of_literal {width : Nat} (positive : 0 < width) (narrow : width ≤ 64) {n : Int}
    (literal : Numeral.IsLiteral literalBases input n) (fits : Fits width n) (inLen : Int) :
    parseFixed width input inLen = .ok n ↔ (input.length : Int) = inLen := by
  obtain ⟨sign, number, magnitude, rfl, reads, rfl⟩ := literal
  have small := (fits_signed_iff _ _).mp fits
  have reading := reading_of_literal reads sign
  constructor
  · intro parsed
    obtain ⟨consumed, _, _, _, other, whole, _⟩ := parseFixed_eq_ok_iff.mp parsed
    rw [(reading.unique other).1]
    exact whole
  · intro whole
    refine parseFixed_eq_ok_iff.mpr ⟨_, sign, .none, magnitude, reading, whole, ?_, ?_⟩
    · rw [wrapped_of_le positive small, not_or]
      exact ⟨Nat.not_le.mpr (lt_two_pow_of_le positive narrow small), Nat.not_lt.mpr small⟩
    · rw [wrapped_of_le positive small]

end

def FixedExact (parse : List UInt8 → Int → Except NumberError Int) (width : Nat)
    (input : List UInt8) : Prop :=
  ∀ n, parse input (wrapInt input.length) = .ok n ↔
    Numeral.IsLiteral literalBases input n ∧ Fits width n

/-- The texts that are read as they should be. Callers narrow the length to an `int`. -/
structure FixedReadable (width : Nat) (input : List UInt8) : Prop where
  literal : ∀ n, Numeral.IsLiteral literalBases input n → Fits width n →
    (input.length : Int) ≤ intMax
  other : (∀ n, Numeral.IsLiteral literalBases input n → ¬ Fits width n) →
    ∀ consumed sign again magnitude, ReadUpTo input consumed sign again magnitude →
      (consumed : Int) = wrapInt input.length →
      2 ^ 64 ≤ magnitude ∨ fixedLimit width sign.negative < wrapped width again magnitude

theorem length_eq_wrapInt_iff {input : List UInt8} :
    (input.length : Int) = wrapInt input.length ↔ (input.length : Int) ≤ intMax := by
  rw [eq_comm, wrapInt_eq_self_iff]
  simp only [intMin]
  omega

theorem fixedExact_iff {width : Nat} (positive : 0 < width) (narrow : width ≤ 64)
    (input : List UInt8) : FixedExact (parseFixed width) width input ↔ FixedReadable width input := by
  constructor
  · intro exact_
    constructor
    · intro n literal fits
      have parsed := (exact_ n).mpr ⟨literal, fits⟩
      exact length_eq_wrapInt_iff.mp ((parseFixed_of_literal positive narrow literal fits _).mp parsed)
    · intro none consumed sign again magnitude reading whole
      by_contra fits
      have parsed := parseFixed_eq_ok_iff.mpr
        ⟨consumed, sign, again, magnitude, reading, whole, fits, rfl⟩
      obtain ⟨literal, range⟩ := (exact_ _).mp parsed
      exact none _ literal range
  · intro readable n
    constructor
    · intro parsed
      by_cases some : ∃ m, Numeral.IsLiteral literalBases input m ∧ Fits width m
      · obtain ⟨m, literal, fits⟩ := some
        have other := (parseFixed_of_literal positive narrow literal fits _).mpr
          (length_eq_wrapInt_iff.mpr (readable.literal m literal fits))
        obtain rfl := Except.ok.inj (parsed.symm.trans other)
        exact ⟨literal, fits⟩
      · obtain ⟨consumed, sign, again, magnitude, reading, whole, fits, _⟩ :=
          parseFixed_eq_ok_iff.mp parsed
        have none : ∀ m, Numeral.IsLiteral literalBases input m → ¬ Fits width m :=
          fun m literal range => some ⟨m, literal, range⟩
        exact absurd (readable.other none consumed sign again magnitude reading whole) fits
    · rintro ⟨literal, fits⟩
      exact (parseFixed_of_literal positive narrow literal fits _).mpr
        (length_eq_wrapInt_iff.mpr (readable.literal n literal fits))

/-! `php_driver_parse_varint`. -/

def VarintExact (gmp : Gmp) (input : List UInt8) : Prop :=
  ∀ n, parseVarint gmp input = some n ↔ Numeral.IsLiteral literalBases input n

/-- What is no literal must not be what GMP reads behind the sign and `0b`. Where that is not
documented, it depends on the library. -/
def VarintReadable (gmp : Gmp) (input : List UInt8) : Prop :=
  (∀ n, ¬ Numeral.IsLiteral literalBases input n) →
    ∀ sign rest base behind, Numeral.Signed input sign rest → Announced rest base behind →
      (∀ n, ¬ Gmp.MpzReads base (cString behind) n) ∧
        (Gmp.MpzMayRead base (cString behind) → gmp.mpzSetStr (cString behind) base = none)

section

variable {gmp : Gmp} {input rest behind number : List UInt8} {sign : Numeral.Sign}
  {base magnitude : Nat}

theorem parseVarint_announced (signed : Numeral.Signed input sign rest)
    (announced : Announced rest base behind) :
    parseVarint gmp input = (gmp.mpzSetStr (cString behind) base).map fun number =>
      if sign.negative then -number else number := by
  have dropped : input.drop (sign.text.length + base) = behind := by
    rw [signed.eq, ← List.drop_drop, List.drop_left, announced.drop_eq]
  simp only [parseVarint, prepareStringConversion_signed signed announced, dropped]

/-- The characters of a number are neither blanks nor the terminator. -/
theorem printable_of_inBase (known : base = 0 ∨ base = 2)
    (inBase : Numeral.InBase strtoullBases base number magnitude) :
    ∀ char ∈ number, 48 ≤ char.toNat := by
  have digits {b : Nat} (small : b ≤ 256) {digits : List UInt8}
      (bounded : ∀ char ∈ digits, Numeral.digitValue char < b) : ∀ char ∈ digits, 48 ≤ char.toNat :=
    fun char member =>
      Numeral.printable_of_digitValue (Nat.lt_of_lt_of_le (bounded char member) small)
  have zero : 48 ≤ '0'.toUInt8.toNat := by decide
  rcases known with rfl | rfl
  · cases inBase with
    | decimal numeral _ => exact digits (by decide) numeral.bounded
    | octal bounded => exact List.forall_mem_cons.mpr ⟨zero, digits (by decide) bounded⟩
    | based known numeral =>
        obtain ⟨rfl, letters⟩ := strtoullBases_eq_some_iff.mp known
        refine List.forall_mem_cons.mpr ⟨zero, List.forall_mem_cons.mpr
          ⟨?_, digits (by decide) numeral.bounded⟩⟩
        rcases letters with rfl | rfl
        all_goals decide
  · exact digits (by decide) inBase.1.bounded

theorem cString_of_printable (printable : ∀ char ∈ number, 48 ≤ char.toNat) :
    cString number = number :=
  (cString_eq_self_iff number).mpr fun zero => absurd (printable 0 zero) (by decide)

theorem inBase_mpzBases (inBase : Numeral.InBase strtoullBases base number magnitude) :
    Numeral.InBase Gmp.mpzBases base number magnitude := by
  rw [Numeral.InBase] at inBase ⊢
  split
  · rename_i zero
    rw [if_pos zero] at inBase
    cases inBase with
    | decimal numeral plain => exact .decimal numeral plain
    | octal bounded => exact .octal bounded
    | based known numeral =>
        obtain ⟨rfl, letters⟩ := strtoullBases_eq_some_iff.mp known
        exact .based (if_pos letters) numeral
  · rename_i other
    rwa [if_neg other] at inBase

theorem mpzReads_of_inBase (known : base = 0 ∨ base = 2)
    (inBase : Numeral.InBase strtoullBases base number magnitude) :
    Gmp.MpzReads base (cString number) magnitude := by
  have printable := printable_of_inBase known inBase
  have noBlank := Gmp.withoutBlanks_of_plain fun char member =>
    isSpace_of_printable (printable char member)
  rw [cString_of_printable printable]
  refine ⟨[], false, number, magnitude, rfl, by simp, ⟨by rw [noBlank], ?_⟩, ?_, rfl⟩
  · intro letter rest shape _
    rw [noBlank] at shape
    rw [shape]
    rfl
  · rw [noBlank]
    exact inBase_mpzBases inBase

theorem parseVarint_of_literal (reads : gmp.ReadsNumbers) {n : Int}
    (literal : Numeral.IsLiteral literalBases input n) : parseVarint gmp input = some n := by
  obtain ⟨sign, number, magnitude, rfl, magnitudeReads, rfl⟩ := literal
  obtain ⟨base, behind, announced, inBase, _⟩ := announced_of_literal magnitudeReads
  have signed := Numeral.signed_of_digit sign magnitudeReads.head
  have small : base ≤ 36 := by
    have known := announced.base_eq
    omega
  rw [parseVarint_announced signed announced,
    reads.reads base _ _ small (mpzReads_of_inBase announced.base_eq inBase)]
  rfl

theorem varintExact_iff (reads : gmp.ReadsNumbers) (input : List UInt8) :
    VarintExact gmp input ↔ VarintReadable gmp input := by
  obtain ⟨sign, rest, signed⟩ := Numeral.exists_signed input
  obtain ⟨base, behind, announced⟩ := exists_announced rest
  have parsed := @parseVarint_announced gmp _ _ _ _ _ signed announced
  have small : base ≤ 36 := by
    have known := announced.base_eq
    omega
  constructor
  · intro exact_ none otherSign otherRest otherBase otherBehind otherSigned otherAnnounced
    obtain ⟨rfl, rfl⟩ := signed.unique otherSigned
    obtain ⟨rfl, rfl⟩ := announced.unique otherAnnounced
    have refused : gmp.mpzSetStr (cString behind) base = .none := by
      by_contra some
      obtain ⟨value, set⟩ := Option.ne_none_iff_exists'.mp some
      rw [set] at parsed
      exact none _ ((exact_ _).mp parsed)
    refine ⟨fun n known => ?_, fun _ => refused⟩
    rw [reads.reads base _ n small known] at refused
    cases refused
  · intro readable n
    constructor
    · intro some
      by_contra other
      have none : ∀ m, ¬ Numeral.IsLiteral literalBases input m := by
        intro m literal
        obtain rfl := Option.some.inj (some.symm.trans (parseVarint_of_literal reads literal))
        exact other literal
      obtain ⟨_, open_⟩ := readable none sign rest base behind signed announced
      have refused : gmp.mpzSetStr (cString behind) base = .none := by
        by_cases may : Gmp.MpzMayRead base (cString behind)
        · exact open_ may
        · exact reads.refuses base _ small may
      rw [parsed, refused] at some
      cases some
    · exact parseVarint_of_literal reads

end

/-! What `php_driver_format_integer` prints. -/

theorem isLiteral_formatInteger (gmp : Gmp) (n : Int) :
    Numeral.IsLiteral literalBases (formatInteger gmp n) n := by
  have reads : Numeral.Magnitude literalBases (DecimalText.ofNat n.natAbs) n.natAbs := by
    by_cases zero : n.natAbs = 0
    · rw [zero]
      exact @Numeral.Magnitude.octal literalBases [] (by simp)
    · have plain : (DecimalText.ofNat n.natAbs).head? ≠ some '0'.toUInt8 :=
        DecimalText.head?_ofNat_ne_zero zero
      have digits := DecimalText.allDigits_ofNat n.natAbs
      have decimal := @Numeral.Magnitude.decimal literalBases _
        (Numeral.isNumeral_ten_iff.mpr ⟨DecimalText.ofNat_ne_nil _, digits⟩) plain
      rwa [Numeral.value_ten digits, DecimalText.toNat_ofNat] at decimal
  rw [formatInteger, gmp.getStr_eq, DecimalText.ofInt]
  by_cases negative : n < 0
  · refine ⟨.minus, _, _, ?_, reads, ?_⟩
    · simp only [negative, decide_true, DecimalText.sign, if_true, Numeral.Sign.text]
    · simp only [Numeral.Sign.negative, DecimalText.signed, if_true]
      omega
  · refine ⟨.none, _, _, ?_, reads, ?_⟩
    · simp only [negative, decide_false, DecimalText.sign, Bool.false_eq_true, if_false,
        Numeral.Sign.text]
    · simp only [Numeral.Sign.negative, DecimalText.signed, Bool.false_eq_true, if_false]
      omega

theorem length_formatInteger_le (gmp : Gmp) {n : Int} (fits : Fits 64 n) :
    ((formatInteger gmp n).length : Int) ≤ intMax := by
  have digits : (DecimalText.ofNat n.natAbs).length ≤ 19 := by
    apply (DecimalText.length_ofNat_le_iff (by decide)).mpr
    obtain ⟨low, high⟩ := fits
    omega
  have sign : (DecimalText.sign (n < 0)).length ≤ 1 := by
    rw [DecimalText.sign]
    split <;> simp
  rw [formatInteger, gmp.getStr_eq, DecimalText.ofInt, List.length_append, intMax]
  omega

theorem not_isLiteral_of_head {bases : UInt8 → Option Nat} {char : UInt8} {rest : List UInt8}
    {n : Int} (noDigit : DecimalText.isDigit char = false) (plus : char ≠ '+'.toUInt8)
    (minus : char ≠ '-'.toUInt8) : ¬ Numeral.IsLiteral bases (char :: rest) n := by
  rintro ⟨sign, number, magnitude, same, reads, _⟩
  cases sign with
  | none =>
      obtain ⟨first, _, rfl, digit⟩ := reads.head
      obtain ⟨rfl, _⟩ := List.cons.inj same
      exact absurd (noDigit.symm.trans digit) (by decide)
  | plus => exact plus (List.cons.inj same).1
  | minus => exact minus (List.cons.inj same).1

end PhpDriver
