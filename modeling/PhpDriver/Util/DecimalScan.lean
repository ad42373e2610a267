import PhpDriver.Util.DecimalGrammar
import PhpDriver.Util.DecimalRead

namespace PhpDriver

open Data

/-! What `php_driver_parse_decimal` makes of a text, by the part of it that the length
shows. -/

namespace DecimalGrammar

def SignificandDigit (char : UInt8) : Prop :=
  isXDigit char = true ∧ ¬ ExponentLetter char

def pointOf (sign : Numeral.Sign) (whole : List UInt8) (fraction : Option (List UInt8)) : Nat :=
  sign.text.length + (whole.length + (dotted fraction).length)

/-- The significand ends before an exponent letter, or where the length says. -/
structure Shown (text : List UInt8) (inLen : Int) (sign : Numeral.Sign) (whole : List UInt8)
    (fraction : Option (List UInt8)) (rest : List UInt8) : Prop where
  signed : Numeral.Signed text sign (whole ++ (dotted fraction ++ rest))
  wholeDigits : ∀ char ∈ whole, SignificandDigit char
  fractionDigits : ∀ char ∈ fraction.getD [], SignificandDigit char
  stop : (∃ letter tail, rest = letter :: tail ∧ ExponentLetter letter ∧
      (pointOf sign whole fraction : Int) < inLen) ∨
    max inLen.toNat sign.text.length = pointOf sign whole fraction

def ReadAsInteger (text : List UInt8) (inLen : Int) : Prop :=
  ∃ sign body, Numeral.Signed text sign body ∧ charAt body 0 = '0'.toUInt8 ∧
    ((charAt body 1 = 'b'.toUInt8 ∨ charAt body 1 = 'x'.toUInt8) ∨
      ∃ whole rest, Shown text inLen sign whole none rest)

section

variable {digits whole rest : List UInt8} {fraction : Option (List UInt8)}

theorem SignificandDigit.ne {char : UInt8} (digit : SignificandDigit char) :
    char ≠ '.'.toUInt8 ∧ ¬ (char = 'e'.toUInt8 ∨ char = 'E'.toUInt8) := by
  refine ⟨?_, digit.2⟩
  rintro rfl
  exact absurd digit.1 (by decide)

theorem SignificandDigit.printable {char : UInt8} (digit : SignificandDigit char) :
    48 ≤ char.toNat := by
  have hex := digit.1
  simp only [isXDigit, DecimalText.isDigit, Bool.or_eq_true, Bool.and_eq_true,
    decide_eq_true_eq] at hex
  omega

theorem not_space_of_printable {char : UInt8} (printable : 48 ≤ char.toNat) :
    isSpace char = false := by
  have notBlank : char ≠ 32 := by
    rintro rfl
    exact absurd printable (by decide)
  simp [isSpace, notBlank]
  omega

theorem scan_digits (all : ∀ char ∈ digits, SignificandDigit char) (rest : List UInt8)
    (point : Nat) (dot : Option Nat) : scanSignificand (digits ++ rest) point dot =
      scanSignificand rest (point + digits.length) dot := by
  induction digits generalizing point with
  | nil => rfl
  | cons char digits ih =>
      have digit := all char List.mem_cons_self
      obtain ⟨noDot, noLetter⟩ := digit.ne
      have next := ih (fun other member => all other (List.mem_cons_of_mem _ member)) (point + 1)
      simp only [List.cons_append, scanSignificand, noDot, noLetter, digit.1, if_false, if_true,
        next, List.length_cons]
      congr 1
      omega

theorem scan_stop (stop : ∀ char, rest.head? = some char → ExponentLetter char)
    (point : Nat) (dot : Option Nat) : scanSignificand rest point dot = .ok (point, dot) := by
  cases rest with
  | nil => rfl
  | cons char rest =>
      have letter := stop char rfl
      have noDot : char ≠ '.'.toUInt8 := by
        rcases letter with rfl | rfl
        all_goals decide
      simp only [scanSignificand, noDot, if_false]
      exact if_pos letter

theorem scan_significand (wholeDigits : ∀ char ∈ whole, SignificandDigit char)
    (fractionDigits : ∀ char ∈ fraction.getD [], SignificandDigit char)
    (stop : ∀ char, rest.head? = some char → ExponentLetter char) (start : Nat) :
    scanSignificand (whole ++ (dotted fraction ++ rest)) start none =
      .ok (start + (whole.length + (dotted fraction).length),
        fraction.map fun _ => start + whole.length) := by
  rw [scan_digits wholeDigits]
  cases fraction with
  | none => exact scan_stop stop _ _
  | some fraction =>
      rw [dotted, List.cons_append, scanSignificand_dot,
        @scan_digits fraction fractionDigits, scan_stop stop, List.length_cons]
      congr 2
      omega

theorem exists_of_scan_some {input : List UInt8} {point dot : Nat} {result : Nat × Option Nat}
    (scanned : scanSignificand input point (some dot) = .ok result) :
    ∃ digits rest, input = digits ++ rest ∧ (∀ char ∈ digits, SignificandDigit char) ∧
      ∀ char, rest.head? = some char → ExponentLetter char := by
  induction input generalizing point with
  | nil => exact ⟨[], [], rfl, by simp, by simp⟩
  | cons char input ih =>
      rw [scanSignificand] at scanned
      split at scanned
      · cases scanned
      · split at scanned
        · rename_i letter
          refine ⟨[], char :: input, rfl, by simp, ?_⟩
          intro head same
          obtain rfl := Option.some.inj same
          exact letter
        · split at scanned
          · rename_i noLetter hex
            obtain ⟨digits, rest, rfl, all, stop⟩ := ih scanned
            exact ⟨char :: digits, rest, rfl, List.forall_mem_cons.mpr ⟨⟨hex, noLetter⟩, all⟩, stop⟩
          · cases scanned

theorem exists_of_scan {input : List UInt8} {point : Nat} {result : Nat × Option Nat}
    (scanned : scanSignificand input point none = .ok result) :
    ∃ whole fraction rest, input = whole ++ (dotted fraction ++ rest) ∧
      (∀ char ∈ whole, SignificandDigit char) ∧
      (∀ char ∈ fraction.getD [], SignificandDigit char) ∧
      ∀ char, rest.head? = some char → ExponentLetter char := by
  induction input generalizing point with
  | nil => exact ⟨[], none, [], rfl, by simp, by simp, by simp⟩
  | cons char input ih =>
      rw [scanSignificand] at scanned
      split at scanned
      · rename_i dot
        obtain ⟨digits, rest, rfl, all, stop⟩ := exists_of_scan_some scanned
        exact ⟨[], some digits, rest, by rw [dot]; rfl, by simp, all, stop⟩
      · split at scanned
        · rename_i letter
          refine ⟨[], none, char :: input, rfl, by simp, by simp, ?_⟩
          intro head same
          obtain rfl := Option.some.inj same
          exact letter
        · split at scanned
          · rename_i noLetter hex
            obtain ⟨whole, fraction, rest, rfl, all, behind, stop⟩ := ih scanned
            exact ⟨char :: whole, fraction, rest, rfl,
              List.forall_mem_cons.mpr ⟨⟨hex, noLetter⟩, all⟩, behind, stop⟩
          · cases scanned

end

section

variable {text body whole rest : List UInt8} {inLen : Int} {sign : Numeral.Sign}
  {fraction : Option (List UInt8)}

/-- The loop over what is shown ends where the significand does. -/
theorem Shown.scan (shown : Shown text inLen sign whole fraction rest) :
    scanSignificand ((whole ++ (dotted fraction ++ rest)).take (inLen.toNat - sign.text.length))
        sign.text.length none =
      .ok (pointOf sign whole fraction, fraction.map fun _ => sign.text.length + whole.length) := by
  have stop := shown.stop
  rw [← List.append_assoc, List.take_append]
  rw [pointOf] at stop
  rcases stop with ⟨letter, tail, rfl, marks, inside⟩ | atEnd
  · obtain ⟨more, count⟩ : ∃ more, inLen.toNat - sign.text.length -
        (whole ++ dotted fraction).length = more + 1 :=
      ⟨inLen.toNat - sign.text.length - (whole ++ dotted fraction).length - 1, by
        rw [List.length_append]; omega⟩
    rw [List.take_of_length_le (by rw [List.length_append]; omega), count, List.take_succ_cons,
      List.append_assoc]
    apply scan_significand shown.wholeDigits shown.fractionDigits
    intro char head
    obtain rfl := Option.some.inj head
    exact marks
  · rw [List.take_of_length_le (by rw [List.length_append]; omega),
      Nat.sub_eq_zero_of_le (by rw [List.length_append]; omega), List.take_zero, List.append_assoc]
    exact scan_significand shown.wholeDigits shown.fractionDigits (by simp) _

/-- Before an exponent letter the parser stops inside what is shown. -/
theorem Shown.letter_of_inside (shown : Shown text inLen sign whole fraction rest)
    (inside : (pointOf sign whole fraction : Int) < inLen) :
    ∃ letter tail, rest = letter :: tail ∧ ExponentLetter letter := by
  rcases shown.stop with ⟨letter, tail, same, marks, _⟩ | atEnd
  · exact ⟨letter, tail, same, marks⟩
  · omega

theorem exists_shown (signed : Numeral.Signed text sign body) (nonneg : 0 ≤ inLen)
    (le : inLen.toNat ≤ text.length) {result : Nat × Option Nat}
    (scanned : scanSignificand (body.take (inLen.toNat - sign.text.length)) sign.text.length none =
      .ok result) : ∃ whole fraction rest, body = whole ++ (dotted fraction ++ rest) ∧
        Shown text inLen sign whole fraction rest := by
  obtain ⟨whole, fraction, rest, taken, wholeDigits, fractionDigits, stop⟩ := exists_of_scan scanned
  have split : body = whole ++ (dotted fraction ++
      (rest ++ body.drop (inLen.toNat - sign.text.length))) := by
    rw [← List.append_assoc, ← List.append_assoc, List.append_assoc whole, ← taken,
      List.take_append_drop]
  refine ⟨whole, fraction, _, split, ?_, wholeDigits, fractionDigits, ?_⟩
  · rw [← split]
    exact signed
  · have length := congrArg List.length taken
    have total := congrArg List.length signed.eq
    rw [List.length_take, List.length_append, List.length_append] at length
    rw [List.length_append] at total
    rw [pointOf]
    cases rest with
    | nil =>
        right
        rw [List.length_nil] at length
        omega
    | cons letter tail =>
        left
        rw [List.length_cons] at length
        exact ⟨letter, _, rfl, stop letter rfl, by omega⟩

end

section

variable {gmp : Gmp} {text body whole rest : List UInt8} {inLen : Int} {sign : Numeral.Sign}
  {fraction : Option (List UInt8)} {slot : Decimal}

theorem parseDecimal_of_signed (signed : Numeral.Signed text sign body) (nonneg : 0 ≤ inLen) :
    parseDecimal gmp text inLen slot =
      if charAt body 0 = '0'.toUInt8 ∧
          (charAt body 1 = 'b'.toUInt8 ∨ charAt body 1 = 'x'.toUInt8) then
        parseInteger gmp text slot
      else match scanSignificand (body.take (inLen.toNat - sign.text.length))
          sign.text.length none with
        | .error error => .exception error slot
        | .ok (point, dot) =>
            if charAt body 0 = '0'.toUInt8 ∧ dot = none then parseInteger gmp text slot
            else if sign.negative = true ∧ inLen = 0 then .undefined
            else parseSignificand gmp text inLen sign.text.length sign.negative point dot slot := by
  obtain ⟨minus, any⟩ := charAt_signed signed
  rw [minus] at any
  have start : (if charAt text 0 = '+'.toUInt8 ∨ sign.negative = true then 1 else 0) =
      sign.text.length := by
    cases sign with
    | none => exact if_neg fun some => absurd (any.mp some.symm) (by decide)
    | plus => exact if_pos (any.mpr rfl).symm
    | minus => exact if_pos (any.mpr rfl).symm
  have first : charAt text sign.text.length = charAt body 0 := by
    rw [signed.eq]
    exact charAt_append_length sign.text body 0
  have second : charAt text (sign.text.length + 1) = charAt body 1 := by
    rw [signed.eq]
    exact charAt_append_length sign.text body 1
  have shown : (text.take inLen.toNat).drop sign.text.length =
      body.take (inLen.toNat - sign.text.length) := by
    rw [List.drop_take, signed.eq, List.drop_left]
  have result := parseDecimal.eq_def gmp text inLen slot
  rw [if_neg (by omega)] at result
  simp only [minus, Bool.decide_eq_true, start, first, second, shown] at result
  exact result

theorem parseDecimal_of_integer (nonneg : 0 ≤ inLen) (path : ReadAsInteger text inLen) :
    parseDecimal gmp text inLen slot = parseInteger gmp text slot := by
  obtain ⟨sign, body, signed, zero, kind⟩ := path
  rw [parseDecimal_of_signed signed nonneg]
  by_cases based : charAt body 1 = 'b'.toUInt8 ∨ charAt body 1 = 'x'.toUInt8
  · rw [if_pos ⟨zero, based⟩]
  · rw [if_neg fun other => based other.2]
    obtain ⟨whole, rest, shown⟩ := kind.resolve_left based
    obtain ⟨-, rfl⟩ := signed.unique shown.signed
    rw [shown.scan]
    exact if_pos ⟨zero, rfl⟩

theorem parseDecimal_of_shown (nonneg : 0 ≤ inLen) (other : ¬ ReadAsInteger text inLen)
    (shown : Shown text inLen sign whole fraction rest) :
    parseDecimal gmp text inLen slot =
      if sign.negative = true ∧ inLen = 0 then .undefined
      else parseSignificand gmp text inLen sign.text.length sign.negative
        (pointOf sign whole fraction) (fraction.map fun _ => sign.text.length + whole.length)
        slot := by
  rw [parseDecimal_of_signed shown.signed nonneg, if_neg, shown.scan]
  · apply if_neg
    rintro ⟨zero, noDot⟩
    obtain rfl := Option.map_eq_none_iff.mp noDot
    exact other ⟨sign, _, shown.signed, zero, Or.inr ⟨whole, rest, shown⟩⟩
  · rintro ⟨zero, based⟩
    exact other ⟨sign, _, shown.signed, zero, Or.inl based⟩

/-- What the loop does not pass over is refused, and nothing is written. -/
theorem parseDecimal_of_not_shown (nonneg : 0 ≤ inLen) (le : inLen.toNat ≤ text.length)
    (other : ¬ ReadAsInteger text inLen)
    (none_ : ∀ sign whole fraction rest, ¬ Shown text inLen sign whole fraction rest) :
    ∃ error, parseDecimal gmp text inLen slot = .exception error slot := by
  obtain ⟨sign, body, signed⟩ := Numeral.exists_signed text
  rw [parseDecimal_of_signed signed nonneg, if_neg]
  · cases scanned : scanSignificand (body.take (inLen.toNat - sign.text.length))
        sign.text.length none with
    | error error => exact ⟨error, rfl⟩
    | ok result =>
        obtain ⟨whole, fraction, rest, _, shown⟩ := exists_shown signed nonneg le scanned
        exact absurd shown (none_ sign whole fraction rest)
  · rintro ⟨zero, based⟩
    exact other ⟨sign, body, signed, zero, Or.inl based⟩

/-- What is copied behind the minus sign: with a dot, one byte more than the fraction. -/
def copied (whole : List UInt8) (fraction : Option (List UInt8)) (rest : List UInt8) :
    List UInt8 :=
  whole ++ (fraction.getD [] ++ if fraction.isSome then rest.take 1 else [])

def nextByte (fraction : Option (List UInt8)) (rest : List UInt8) : List UInt8 :=
  cString (if fraction.isSome then rest.take 1 else [])

theorem cString_copied (shown : Shown text inLen sign whole fraction rest) :
    cString (copied whole fraction rest) =
      whole ++ (fraction.getD [] ++ nextByte fraction rest) := by
  have noZero {digits : List UInt8} (all : ∀ char ∈ digits, SignificandDigit char) : 0 ∉ digits :=
    fun member => absurd (all 0 member).printable (by decide)
  rw [copied, cString_append (noZero shown.wholeDigits),
    cString_append (noZero shown.fractionDigits)]
  rfl

theorem nextByte_eq (fraction : Option (List UInt8)) (rest : List UInt8) :
    nextByte fraction rest = [] ∨ ∃ char tail, fraction.isSome = true ∧ rest = char :: tail ∧
      nextByte fraction rest = [char] := by
  cases fraction with
  | none => exact Or.inl rfl
  | some fraction =>
      cases rest with
      | nil => exact Or.inl rfl
      | cons char tail =>
          by_cases zero : char = 0
          · exact Or.inl (by simp [nextByte, cString, zero])
          · exact Or.inr ⟨char, tail, rfl, rfl, by simp [nextByte, cString, zero]⟩

theorem parseSignificand_of_shown (shown : Shown text inLen sign whole fraction rest) :
    parseSignificand gmp text inLen sign.text.length sign.negative (pointOf sign whole fraction)
        (fraction.map fun _ => sign.text.length + whole.length) slot =
      (let out := cString (DecimalText.sign sign.negative ++ copied whole fraction rest)
      let scale := BitVec.ofInt 64 (places fraction)
      if sign.negative = false ∧ whole = [] ∧ places fraction = 0 then
        .exception .noDigits { slot with scale }
      else match gmp.mpzSetStr out 10 with
        | none => .exception (.integerPart out) { slot with scale }
        | some value =>
            parseExponent text inLen (pointOf sign whole fraction) { value, scale }) := by
  have minus : (DecimalText.sign sign.negative).length = 0 ↔ sign.negative = false := by
    cases sign.negative <;> decide
  have empty : whole = [] ↔ whole.length = 0 := List.length_eq_zero_iff.symm
  cases fraction with
  | none =>
      have digits := slice_append sign.text whole rest
      have all : text = sign.text ++ (whole ++ rest) := shown.signed.eq
      have point : pointOf sign whole none = sign.text.length + whole.length := rfl
      have outLen : sign.text.length + whole.length - sign.text.length +
          (DecimalText.sign sign.negative).length = 0 ↔
          sign.negative = false ∧ whole = [] ∧ places none = 0 := by
        rw [← minus, empty]
        simp only [places, Option.getD_none, List.length_nil, and_true]
        omega
      rw [← all] at digits
      simp only [parseSignificand, Option.map_none, point, digits, outLen, copied]
      simp only [Option.getD_none, Option.isSome_none, Bool.false_eq_true, if_false,
        List.append_nil]
      rfl
  | some fraction =>
      have all : text = sign.text ++ (whole ++ ('.'.toUInt8 :: (fraction ++ rest))) :=
        shown.signed.eq
      have first := slice_append sign.text whole ('.'.toUInt8 :: (fraction ++ rest))
      have second : slice (sign.text ++ (whole ++ ('.'.toUInt8 :: (fraction ++ rest))))
          (sign.text.length + whole.length + 1)
          (sign.text.length + (whole.length + (fraction.length + 1)) + 1) =
            fraction ++ rest.take 1 := by
        have shape : sign.text ++ (whole ++ '.'.toUInt8 :: (fraction ++ rest)) =
            (sign.text ++ whole ++ ['.'.toUInt8]) ++ (fraction ++ rest) := by simp
        rw [shape, slice, List.drop_left' (by simp; omega), List.take_append,
          List.take_of_length_le (by omega)]
        congr 2
        omega
      have point : pointOf sign whole (some fraction) =
          sign.text.length + (whole.length + (fraction.length + 1)) := rfl
      have scale : ((sign.text.length + (whole.length + (fraction.length + 1)) : Nat) : Int) - 1 -
          (sign.text.length + whole.length : Nat) = (places (some fraction) : Nat) := by
        simp only [places, Option.getD_some]
        omega
      have outLen : sign.text.length + (whole.length + (fraction.length + 1)) - sign.text.length +
          (DecimalText.sign sign.negative).length - 1 = 0 ↔
          sign.negative = false ∧ whole = [] ∧ places (some fraction) = 0 := by
        rw [← minus, empty]
        simp only [places, Option.getD_some]
        omega
      rw [← all] at first second
      have result := parseSignificand.eq_def gmp text inLen sign.text.length sign.negative
        (pointOf sign whole (some fraction)) (some (sign.text.length + whole.length)) slot
      simp only [point, first, second, scale, outLen, List.append_assoc] at result
      exact result

def plusLength (tail : List UInt8) : Nat :=
  if charAt tail 0 = '+'.toUInt8 then 1 else 0

theorem parseExponent_of_letter {letter : UInt8} {tail : List UInt8}
    (signed : Numeral.Signed text sign (whole ++ (dotted fraction ++ letter :: tail)))
    (inside : (pointOf sign whole fraction : Int) < inLen) :
    parseExponent text inLen (pointOf sign whole fraction) slot =
      if inLen ≤ (pointOf sign whole fraction + 1 + plusLength tail : Nat) then
        .exception .noExponent slot
      else match sscanfInt (cString (tail.drop (plusLength tail))) with
        | .matchingFailure => .exception .malformedExponent slot
        | .endOfInput => .undefined
        | .converted diff =>
            if intMin ≤ diff ∧ diff ≤ intMax then
              .ok { slot with scale := slot.scale - BitVec.ofInt 64 diff }
            else .undefined := by
  have shape : text = (sign.text ++ whole ++ dotted fraction ++ [letter]) ++ tail := by
    rw [signed.eq]
    simp
  have length : (sign.text ++ whole ++ dotted fraction ++ [letter]).length =
      pointOf sign whole fraction + 1 := by
    simp only [List.length_append, List.length_singleton, pointOf]
    omega
  have next : charAt text (pointOf sign whole fraction + 1) = charAt tail 0 := by
    rw [shape, ← length]
    exact charAt_append_length _ tail 0
  have behind : text.drop (pointOf sign whole fraction + 1 + plusLength tail) =
      tail.drop (plusLength tail) := by
    rw [← List.drop_drop, shape, ← length, List.drop_left]
  have position : (if charAt tail 0 = '+'.toUInt8 then pointOf sign whole fraction + 1 + 1
      else pointOf sign whole fraction + 1) =
        pointOf sign whole fraction + 1 + plusLength tail := by
    rw [plusLength]
    split <;> rfl
  have result := parseExponent.eq_def text inLen (pointOf sign whole fraction) slot
  rw [if_pos inside] at result
  simp only [next, position, behind] at result
  exact result

/-- Something follows the blanks, and it is no number. -/
def NoNumber (text : List UInt8) : Prop :=
  ∃ blanks rest sign behind, Blanks text blanks rest ∧ rest ≠ [] ∧
    Numeral.Signed rest sign behind ∧
    ∀ char, behind.head? = some char → DecimalText.isDigit char = false

theorem sscanfInt_of_signed {text blanks rest behind : List UInt8} {sign : Numeral.Sign}
    (divided : Blanks text blanks rest) (some_ : rest ≠ [])
    (signed : Numeral.Signed rest sign behind) :
    sscanfInt text = if behind.takeWhile DecimalText.isDigit = [] then .matchingFailure
      else .converted (DecimalText.signed sign.negative
        (DecimalText.toNat (behind.takeWhile DecimalText.isDigit))) := by
  have dropped : text.dropWhile isSpace = rest := by
    have taken := divided.takeWhile_eq
    have whole := List.takeWhile_append_dropWhile (p := isSpace) (l := text)
    rw [taken, divided.eq] at whole
    rw [divided.eq]
    exact List.append_cancel_left whole
  obtain ⟨minus, any⟩ := charAt_signed signed
  cases rest with
  | nil => exact absurd rfl some_
  | cons char rest =>
      have first : charAt (char :: rest) 0 = char := rfl
      rw [minus, first] at any
      rw [first] at minus
      have digits : (if char = '+'.toUInt8 ∨ sign.negative = true then rest else char :: rest) =
          behind := by
        have eq := signed.eq
        cases sign with
        | none =>
            rw [if_neg fun either => absurd (any.mp either.symm) (by decide)]
            exact eq
        | plus =>
            rw [if_pos (any.mpr rfl).symm]
            exact (List.cons.inj eq).2
        | minus =>
            rw [if_pos (any.mpr rfl).symm]
            exact (List.cons.inj eq).2
      rw [sscanfInt, dropped]
      simp only [decide_eq_true_eq, minus, digits]
      split
      · rfl
      · rw [DecimalText.signed]
        split <;> rfl

theorem sscanfInt_nil {text : List UInt8} (blank : ∀ char ∈ text, isSpace char = true) :
    sscanfInt text = .endOfInput := by
  have dropped : text.dropWhile isSpace = [] := List.dropWhile_eq_nil_iff.mpr blank
  rw [sscanfInt, dropped]

theorem sscanfInt_eq_matchingFailure_iff (text : List UInt8) :
    sscanfInt text = .matchingFailure ↔ NoNumber text := by
  have stopped (behind : List UInt8) : behind.takeWhile DecimalText.isDigit = [] ↔
      ∀ char, behind.head? = some char → DecimalText.isDigit char = false := by
    cases behind <;> simp
  obtain ⟨blanks, rest, divided⟩ := exists_blanks text
  obtain ⟨sign, behind, signed⟩ := Numeral.exists_signed rest
  constructor
  · intro failed
    have some_ : rest ≠ [] := by
      rintro rfl
      have all : ∀ char ∈ text, isSpace char = true := by
        rw [divided.eq, List.append_nil]
        exact divided.blank
      rw [sscanfInt_nil all] at failed
      cases failed
    rw [sscanfInt_of_signed divided some_ signed] at failed
    refine ⟨blanks, rest, sign, behind, divided, some_, signed, (stopped behind).mp ?_⟩
    by_contra digits
    rw [if_neg digits] at failed
    cases failed
  · rintro ⟨_, _, _, _, otherDivided, some_, otherSigned, stop⟩
    rw [sscanfInt_of_signed otherDivided some_ otherSigned, if_pos ((stopped _).mpr stop)]

theorem sscanfInt_exponent (sign : Numeral.Sign) {digits : List UInt8} (nonempty : digits ≠ [])
    (all : DecimalText.AllDigits digits) :
    sscanfInt (cString ((sign.text ++ digits).drop (plusLength (sign.text ++ digits)))) =
      .converted (DecimalText.signed sign.negative (DecimalText.toNat digits)) := by
  have begins : ∃ first rest, digits = first :: rest ∧ DecimalText.isDigit first = true := by
    cases digits with
    | nil => exact absurd rfl nonempty
    | cons first rest => exact ⟨first, rest, rfl, all first List.mem_cons_self⟩
  obtain ⟨first, others, shape, digit⟩ := begins
  have noPlus : first ≠ '+'.toUInt8 := by
    rintro rfl
    exact absurd digit (by decide)
  -- the sign that is left for `sscanf`
  have read (left : Numeral.Sign) (minus : left.negative = sign.negative)
      (dropped : (sign.text ++ digits).drop (plusLength (sign.text ++ digits)) =
        left.text ++ digits) :
      sscanfInt (cString ((sign.text ++ digits).drop (plusLength (sign.text ++ digits)))) =
        .converted (DecimalText.signed sign.negative (DecimalText.toNat digits)) := by
    have terminated : cString (left.text ++ digits) = left.text ++ digits := by
      rw [cString_eq_self_iff, List.mem_append]
      rintro (inSign | inDigits)
      · cases left <;> revert inSign <;> decide
      · exact absurd (all 0 inDigits) (by decide)
    have noBlank : Blanks (left.text ++ digits) [] (left.text ++ digits) := by
      refine ⟨rfl, by simp, ?_⟩
      intro char head
      cases left with
      | none =>
          rw [shape] at head
          obtain rfl := Option.some.inj head
          exact isSpace_of_digit digit
      | plus | minus =>
          obtain rfl := Option.some.inj head
          decide
    have whole : digits.takeWhile DecimalText.isDigit = digits := List.takeWhile_eq_self_iff.mpr all
    rw [dropped, terminated, sscanfInt_of_signed noBlank (by simp [nonempty])
      (Numeral.signed_of_digit left ⟨first, others, shape, digit⟩), whole, if_neg nonempty, minus]
  cases sign with
  | none =>
      apply read .none rfl
      rw [shape]
      simp [plusLength, Numeral.Sign.text, charAt, noPlus]
  | plus => exact read .none rfl rfl
  | minus => exact read .minus rfl rfl

end

end DecimalGrammar

end PhpDriver
