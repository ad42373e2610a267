import PhpDriver.Util.DecimalFormat

namespace PhpDriver

open Data

variable (gmp : Gmp)

/-! The scanner over digits, a dot and the end of the significand. -/

private theorem isXDigit_of_isDigit {char : UInt8}
    (digit : DecimalText.isDigit char = true) :
    isXDigit char = true ∧ char ≠ '.'.toUInt8 ∧ char ≠ 'e'.toUInt8 ∧
      char ≠ 'E'.toUInt8 := by
  refine ⟨by simp [isXDigit, digit], ?_, ?_, ?_⟩
  all_goals
    rintro rfl
    exact absurd digit (by decide)

theorem scanSignificand_digits {digits : List UInt8}
    (allDigits : DecimalText.AllDigits digits) (rest : List UInt8) (point : Nat)
    (dot : Option Nat) :
    scanSignificand (digits ++ rest) point dot =
      scanSignificand rest (point + digits.length) dot := by
  induction digits generalizing point with
  | nil => rfl
  | cons char digits ih =>
      obtain ⟨hex, notDot, notLower, notUpper⟩ := isXDigit_of_isDigit (allDigits char (by simp))
      have tail := ih (fun other member => allDigits other (List.mem_cons_of_mem _ member))
        (point + 1)
      simp only [List.cons_append, scanSignificand, notDot, notLower, notUpper, hex,
        if_false, or_self, if_true, tail, List.length_cons]
      congr 1
      omega

theorem scanSignificand_dot (rest : List UInt8) (point : Nat) :
    scanSignificand ('.'.toUInt8 :: rest) point none =
      scanSignificand rest (point + 1) (some point) := rfl

private theorem charAt_sign (negative : Bool) {body : List UInt8}
    (digit : DecimalText.isDigit (charAt body 0) = true) :
    (charAt (DecimalText.sign negative ++ body) 0 = '-'.toUInt8 ↔ negative = true) ∧
      charAt (DecimalText.sign negative ++ body) 0 ≠ '+'.toUInt8 := by
  cases negative with
  | true =>
      refine ⟨⟨fun _ => rfl, fun _ => rfl⟩, ?_⟩
      change '-'.toUInt8 ≠ '+'.toUInt8
      decide
  | false =>
      simp only [DecimalText.sign, Bool.false_eq_true, if_false, List.nil_append, iff_false]
      constructor
      all_goals
        intro same
        rw [same] at digit
        exact absurd digit (by decide)

@[simp] private theorem charAt_append_sign (negative : Bool) (body : List UInt8) (i : Nat) :
    charAt (DecimalText.sign negative ++ body) ((DecimalText.sign negative).length + i) =
      charAt body i := by
  rw [charAt, charAt, List.getD_eq_getElem?_getD, List.getD_eq_getElem?_getD,
    List.getElem?_append_right (by omega)]
  congr 2
  omega

/-- The start of the parser on a text whose body begins with a digit. -/
theorem parseDecimal_signed (negative : Bool) {body : List UInt8} (inLen : Int)
    (digit : DecimalText.isDigit (charAt body 0) = true) (nonneg : 0 ≤ inLen)
    (slot : Decimal) :
    parseDecimal gmp (DecimalText.sign negative ++ body) inLen slot =
      if charAt body 0 = '0'.toUInt8 ∧ (charAt body 1 = 'b'.toUInt8 ∨
          charAt body 1 = 'x'.toUInt8) then
        parseInteger gmp (DecimalText.sign negative ++ body) slot
      else match scanSignificand
          (body.take (inLen.toNat - (DecimalText.sign negative).length))
          (DecimalText.sign negative).length none with
        | .error error => .exception error slot
        | .ok (point, dot) =>
            if charAt body 0 = '0'.toUInt8 ∧ dot = none then
              parseInteger gmp (DecimalText.sign negative ++ body) slot
            else if negative ∧ inLen = 0 then .undefined
            else parseSignificand gmp (DecimalText.sign negative ++ body) inLen
              (DecimalText.sign negative).length negative point dot slot := by
  obtain ⟨minus, plus⟩ := charAt_sign negative digit
  have start : (if charAt (DecimalText.sign negative ++ body) 0 = '+'.toUInt8 ∨
      negative = true then 1 else 0) = (DecimalText.sign negative).length := by
    simp only [plus, false_or]
    cases negative <;> rfl
  have sign : decide (charAt (DecimalText.sign negative ++ body) 0 = '-'.toUInt8) =
      negative := by
    simp only [minus, Bool.decide_eq_true]
  have first := charAt_append_sign negative body 0
  have second := charAt_append_sign negative body 1
  have body_ : ((DecimalText.sign negative ++ body).take inLen.toNat).drop
      (DecimalText.sign negative).length =
      body.take (inLen.toNat - (DecimalText.sign negative).length) := by
    rw [List.drop_take, List.drop_left]
  rw [Nat.add_zero] at first
  have result := parseDecimal.eq_def gmp (DecimalText.sign negative ++ body) inLen slot
  rw [if_neg (by omega)] at result
  simp only [sign, start, first, second, body_] at result
  exact result

theorem slice_append (left middle right : List UInt8) :
    slice (left ++ (middle ++ right)) left.length (left.length + middle.length) =
      middle := by
  simp [slice]

theorem cString_digits_append {digits : List UInt8}
    (allDigits : DecimalText.AllDigits digits) (rest : List UInt8) :
    cString (digits ++ rest) = digits ++ cString rest :=
  cString_append (fun member => absurd (allDigits 0 member) (by decide)) rest

private theorem cString_of_allDigits {text : List UInt8}
    (allDigits : DecimalText.AllDigits text) : cString text = text := by
  simpa [cString] using cString_digits_append allDigits []

theorem cString_sign_append (negative : Bool) (text : List UInt8) :
    cString (DecimalText.sign negative ++ text) =
      DecimalText.sign negative ++ cString text :=
  cString_append (by cases negative <;> decide) text

theorem mpzSetStr_digits (negative : Bool) {digits : List UInt8} (nonempty : digits ≠ [])
    (allDigits : DecimalText.AllDigits digits) :
    gmp.mpzSetStr (cString (DecimalText.sign negative ++ digits)) 10 =
      some (DecimalText.signed negative (DecimalText.toNat digits)) := by
  rw [cString_sign_append, cString_of_allDigits allDigits,
    gmp.setStr_decimal negative digits nonempty allDigits]

theorem parseSignificand_integer (negative : Bool) {digits : List UInt8}
    (nonempty : digits ≠ []) (allDigits : DecimalText.AllDigits digits)
    (tail : List UInt8) (inLen : Int) (slot : Decimal) :
    parseSignificand gmp (DecimalText.sign negative ++ (digits ++ tail)) inLen
        (DecimalText.sign negative).length negative
        ((DecimalText.sign negative).length + digits.length) none slot =
      parseExponent (DecimalText.sign negative ++ (digits ++ tail)) inLen
        ((DecimalText.sign negative).length + digits.length)
        { value := DecimalText.signed negative (DecimalText.toNat digits), scale := 0 } := by
  have positive := List.length_pos_iff.mpr nonempty
  simp only [parseSignificand, slice_append, mpzSetStr_digits gmp negative nonempty allDigits]
  rw [if_neg (by omega)]
  rfl

theorem parseSignificand_fraction (negative : Bool) {int frac : List UInt8}
    (nonempty : int ≠ []) (tail : List UInt8) (inLen : Int) (slot : Decimal) :
    parseSignificand gmp (DecimalText.sign negative ++ (int ++ '.'.toUInt8 :: (frac ++ tail)))
        inLen (DecimalText.sign negative).length negative
        ((DecimalText.sign negative).length + int.length + 1 + frac.length)
        (some ((DecimalText.sign negative).length + int.length)) slot =
      match gmp.mpzSetStr
          (cString (DecimalText.sign negative ++ (int ++ (frac ++ tail.take 1)))) 10 with
      | none => .exception (.integerPart
          (cString (DecimalText.sign negative ++ (int ++ (frac ++ tail.take 1)))))
          { slot with scale := BitVec.ofInt 64 frac.length }
      | some value =>
          parseExponent (DecimalText.sign negative ++ (int ++ '.'.toUInt8 :: (frac ++ tail)))
            inLen ((DecimalText.sign negative).length + int.length + 1 + frac.length)
            { value, scale := BitVec.ofInt 64 frac.length } := by
  have positive := List.length_pos_iff.mpr nonempty
  have first := slice_append (DecimalText.sign negative) int
    ('.'.toUInt8 :: (frac ++ tail))
  have second : slice (DecimalText.sign negative ++ (int ++ '.'.toUInt8 :: (frac ++ tail)))
      ((DecimalText.sign negative).length + int.length + 1)
      ((DecimalText.sign negative).length + int.length + 1 + frac.length + 1) =
        frac ++ tail.take 1 := by
    have shape : DecimalText.sign negative ++ (int ++ '.'.toUInt8 :: (frac ++ tail)) =
        (DecimalText.sign negative ++ int ++ ['.'.toUInt8]) ++ (frac ++ tail) := by simp
    rw [shape, slice, List.drop_left' (by simp; omega), List.take_append,
      List.take_of_length_le (by omega)]
    congr 2
    omega
  have scale : ((((DecimalText.sign negative).length + int.length + 1 + frac.length : Nat) :
      Int) - 1 - ((DecimalText.sign negative).length + int.length : Nat)) = frac.length := by
    omega
  simp only [parseSignificand, first, second, scale, List.append_assoc]
  exact if_neg (by omega)

theorem parseExponent_of_le (input : List UInt8) {inLen : Int} {point : Nat}
    (atEnd : inLen ≤ point) (slot : Decimal) :
    parseExponent input inLen point slot = .ok slot := by
  rw [parseExponent, if_neg (by omega)]

theorem isDigit_charAt_zero {digits : List UInt8} (nonempty : digits ≠ [])
    (allDigits : DecimalText.AllDigits digits) (rest : List UInt8) :
    DecimalText.isDigit (charAt (digits ++ rest) 0) = true := by
  cases digits with
  | nil => exact absurd rfl nonempty
  | cons char digits => exact allDigits char (by simp)

theorem not_base_letter {char : UInt8}
    (plain : char = '.'.toUInt8 ∨ DecimalText.isDigit char = true) :
    ¬ (char = 'b'.toUInt8 ∨ char = 'x'.toUInt8) := by
  rintro (rfl | rfl)
  all_goals
    rcases plain with same | digit
    · exact absurd same (by decide)
    · exact absurd digit (by decide)

private theorem charAt_one_plain {int : List UInt8} (nonempty : int ≠ [])
    (allDigits : DecimalText.AllDigits int) (rest : List UInt8) :
    charAt (int ++ '.'.toUInt8 :: rest) 1 = '.'.toUInt8 ∨
      DecimalText.isDigit (charAt (int ++ '.'.toUInt8 :: rest) 1) = true := by
  match int, nonempty with
  | [_], _ => exact Or.inl rfl
  | _ :: second :: _, _ => exact Or.inr (allDigits second (by simp))

/-- A significand that stops inside `int ++ '.' :: frac`, behind the dot. -/
theorem parseDecimal_fraction (negative : Bool) {int frac : List UInt8}
    (nonempty : int ≠ []) (intDigits : DecimalText.AllDigits int)
    (fracDigits : DecimalText.AllDigits frac) (tail : List UInt8) (inLen : Int)
    (stop : inLen.toNat - (DecimalText.sign negative).length =
        int.length + 1 + frac.length ∨
      (inLen.toNat - (DecimalText.sign negative).length > int.length + 1 + frac.length ∧
        tail.head? = some 'E'.toUInt8))
    (slot : Decimal) :
    parseDecimal gmp (DecimalText.sign negative ++ (int ++ '.'.toUInt8 :: (frac ++ tail)))
        inLen slot =
      parseSignificand gmp
        (DecimalText.sign negative ++ (int ++ '.'.toUInt8 :: (frac ++ tail)))
        inLen (DecimalText.sign negative).length negative
        ((DecimalText.sign negative).length + int.length + 1 + frac.length)
        (some ((DecimalText.sign negative).length + int.length)) slot := by
  have scan : scanSignificand ((int ++ '.'.toUInt8 :: (frac ++ tail)).take
      (inLen.toNat - (DecimalText.sign negative).length))
      (DecimalText.sign negative).length none =
        .ok ((DecimalText.sign negative).length + int.length + 1 + frac.length,
          some ((DecimalText.sign negative).length + int.length)) := by
    have shape : int ++ '.'.toUInt8 :: (frac ++ tail) =
        (int ++ '.'.toUInt8 :: frac) ++ tail := by simp
    have taken (rest : List UInt8)
        (ends : ∀ point dot, scanSignificand rest point dot = .ok (point, dot)) :
        scanSignificand ((int ++ '.'.toUInt8 :: frac) ++ rest)
          (DecimalText.sign negative).length none =
        .ok ((DecimalText.sign negative).length + int.length + 1 + frac.length,
          some ((DecimalText.sign negative).length + int.length)) := by
      rw [List.append_assoc, scanSignificand_digits intDigits, List.cons_append,
        scanSignificand_dot, scanSignificand_digits fracDigits, ends]
    rw [shape, List.take_append, List.take_of_length_le (by simp; omega)]
    rcases stop with exact_ | ⟨beyond, exponent⟩
    · rw [List.length_append, List.length_cons, Nat.sub_eq_zero_of_le (by omega),
        List.take_zero]
      exact taken [] fun _ _ => rfl
    · obtain ⟨rest, rfl⟩ := List.head?_eq_some_iff.mp exponent
      obtain ⟨more, count⟩ : ∃ more, inLen.toNat - (DecimalText.sign negative).length -
          (int ++ '.'.toUInt8 :: frac).length = more + 1 :=
        ⟨inLen.toNat - (DecimalText.sign negative).length -
          (int ++ '.'.toUInt8 :: frac).length - 1, by simp; omega⟩
      rw [count, List.take_succ_cons]
      exact taken _ fun _ _ => rfl
  have nonneg : 0 ≤ inLen := by omega
  rw [parseDecimal_signed gmp negative inLen
    (isDigit_charAt_zero nonempty intDigits _) nonneg,
    if_neg fun base => not_base_letter (charAt_one_plain nonempty intDigits _) base.2, scan]
  simp only [reduceCtorEq, and_false, if_false]
  rw [if_neg (by omega)]

/-- A significand of digits alone, the first of which is no zero. -/
theorem parseDecimal_integer (negative : Bool) {digits : List UInt8}
    (nonempty : digits ≠ []) (allDigits : DecimalText.AllDigits digits)
    (head : charAt digits 0 ≠ '0'.toUInt8) (tail : List UInt8) (inLen : Int)
    (stop : inLen.toNat - (DecimalText.sign negative).length = digits.length ∨
      (inLen.toNat - (DecimalText.sign negative).length > digits.length ∧
        tail.head? = some 'E'.toUInt8))
    (slot : Decimal) :
    parseDecimal gmp (DecimalText.sign negative ++ (digits ++ tail)) inLen slot =
      parseExponent (DecimalText.sign negative ++ (digits ++ tail)) inLen
        ((DecimalText.sign negative).length + digits.length)
        { value := DecimalText.signed negative (DecimalText.toNat digits), scale := 0 } := by
  have positive := List.length_pos_iff.mpr nonempty
  have first : charAt (digits ++ tail) 0 = charAt digits 0 := by
    cases digits with
    | nil => exact absurd rfl nonempty
    | cons char digits => rfl
  have scan : scanSignificand
      ((digits ++ tail).take (inLen.toNat - (DecimalText.sign negative).length))
      (DecimalText.sign negative).length none =
        .ok ((DecimalText.sign negative).length + digits.length, none) := by
    rw [List.take_append, List.take_of_length_le (by omega), scanSignificand_digits allDigits]
    rcases stop with exact_ | ⟨beyond, exponent⟩
    · rw [Nat.sub_eq_zero_of_le (by omega), List.take_zero]
      rfl
    · obtain ⟨rest, rfl⟩ := List.head?_eq_some_iff.mp exponent
      obtain ⟨more, count⟩ : ∃ more, inLen.toNat - (DecimalText.sign negative).length -
          digits.length = more + 1 :=
        ⟨inLen.toNat - (DecimalText.sign negative).length - digits.length - 1, by omega⟩
      rw [count, List.take_succ_cons]
      rfl
  have nonneg : 0 ≤ inLen := by omega
  rw [parseDecimal_signed gmp negative inLen
    (isDigit_charAt_zero nonempty allDigits _) nonneg, first,
    if_neg (fun base => head base.1), scan]
  simp only [head, false_and, if_false]
  rw [if_neg (by omega)]
  exact parseSignificand_integer gmp negative nonempty allDigits tail inLen slot

/-! A leading zero without a dot behind it sends the whole text to
`php_driver_parse_varint`. -/

theorem parseInteger_octal_invalid (negative : Bool) {second : UInt8} (rest : List UInt8)
    (space : isSpace second = false) (terminator : second ≠ 0)
    (letter : second ∉ ['x', 'X', 'b', 'B'].map Char.toUInt8)
    (octal : isOctalDigit second = false) (slot : Decimal) :
    parseInteger gmp (DecimalText.sign negative ++ '0'.toUInt8 :: second :: rest) slot =
      .exception .invalidInteger { slot with scale := 0 } := by
  have digit : DecimalText.isDigit (charAt ('0'.toUInt8 :: second :: rest) 0) = true := by
    change DecimalText.isDigit '0'.toUInt8 = true
    decide
  obtain ⟨minus, plus⟩ := charAt_sign negative digit
  have zero := charAt_append_sign negative ('0'.toUInt8 :: second :: rest) 0
  have next := charAt_append_sign negative ('0'.toUInt8 :: second :: rest) 1
  have notB : second ≠ 'b'.toUInt8 := by
    rintro rfl
    exact letter (by decide)
  have convert : prepareStringConversion
      (DecimalText.sign negative ++ '0'.toUInt8 :: second :: rest) =
        (0, (DecimalText.sign negative).length, negative) := by
    cases negative <;> simp_all [prepareStringConversion, charAt, DecimalText.sign]
  have text : cString ('0'.toUInt8 :: second :: rest) =
      '0'.toUInt8 :: second :: cString rest := by
    have nonzero : '0'.toUInt8 ≠ 0 := by decide
    simp [cString, terminator, nonzero]
  rw [parseInteger, parseVarint, convert]
  simp only [List.drop_left, text, gmp.setStr_octal_invalid second _ space letter octal,
    Option.map_none]

theorem parseDecimal_octal_invalid (negative : Bool) (second : UInt8) (rest : List UInt8)
    (space : isSpace second = false) (terminator : second ≠ 0)
    (letter : second ∉ ['x', 'X', 'b', 'B'].map Char.toUInt8)
    (octal : isOctalDigit second = false) {inLen : Int}
    (stop : inLen.toNat - (DecimalText.sign negative).length ≤ 1 ∨ second = 'E'.toUInt8)
    (slot slot' : Decimal) :
    parseDecimal gmp (DecimalText.sign negative ++ '0'.toUInt8 :: second :: rest) inLen slot ≠
      .ok slot' := by
  by_cases nonneg : 0 ≤ inLen
  swap
  · rw [parseDecimal, if_pos (by omega)]
    exact Parsed.noConfusion
  have digit : DecimalText.isDigit (charAt ('0'.toUInt8 :: second :: rest) 0) = true := by
    change DecimalText.isDigit '0'.toUInt8 = true
    decide
  have notLetter : ¬ (second = 'b'.toUInt8 ∨ second = 'x'.toUInt8) := by
    rintro (rfl | rfl) <;> exact letter (by decide)
  have noDot : ∃ point, scanSignificand (('0'.toUInt8 :: second :: rest).take
      (inLen.toNat - (DecimalText.sign negative).length))
      (DecimalText.sign negative).length none = .ok (point, none) := by
    have first (tail : List UInt8) (point : Nat) :
        scanSignificand ('0'.toUInt8 :: tail) point none =
          scanSignificand tail (point + 1) none := rfl
    match count : inLen.toNat - (DecimalText.sign negative).length, stop with
    | 0, _ => exact ⟨_, rfl⟩
    | 1, _ => exact ⟨_, rfl⟩
    | more + 2, stop =>
        obtain rfl : second = 'E'.toUInt8 := stop.resolve_left (by omega)
        exact ⟨_, rfl⟩
  obtain ⟨point, scan⟩ := noDot
  have zero : charAt ('0'.toUInt8 :: second :: rest) 0 = '0'.toUInt8 := rfl
  have one : charAt ('0'.toUInt8 :: second :: rest) 1 = second := rfl
  rw [parseDecimal_signed gmp negative inLen digit nonneg, zero, one,
    if_neg fun base => notLetter base.2, scan]
  simp only [and_self, if_true]
  rw [parseInteger_octal_invalid gmp negative rest space terminator letter octal]
  exact Parsed.noConfusion

theorem parseDecimal_zero {inLen : Int} (length : inLen = 1) (slot : Decimal) :
    parseDecimal gmp ['0'.toUInt8] inLen slot = .ok { value := 0, scale := 0 } := by
  subst length
  have set : gmp.mpzSetStr (cString ['0'.toUInt8]) 0 = some 0 := gmp.setStr_octal_zero
  have varint : parseVarint gmp ['0'.toUInt8] = some 0 := by
    change (gmp.mpzSetStr (cString ['0'.toUInt8]) 0).map _ = _
    rw [set]
    rfl
  change parseInteger gmp ['0'.toUInt8] slot = _
  rw [parseInteger, varint]

/-! A text of more than `INT_MAX` bytes is parsed with a smaller length, so that
at most a part of the digits arrives. -/

private theorem signed_bound (negative : Bool) {digits : List UInt8}
    (allDigits : DecimalText.AllDigits digits) {k : Nat} (length : digits.length ≤ k) :
    (DecimalText.signed negative (DecimalText.toNat digits)).natAbs < 10 ^ k := by
  rw [DecimalText.natAbs_signed]
  exact Nat.lt_of_lt_of_le (DecimalText.toNat_lt allDigits)
    (Nat.pow_le_pow_right (by decide) length)

private theorem parseDecimal_no_digits (negative : Bool) {body : List UInt8}
    (digit : DecimalText.isDigit (charAt body 0) = true)
    (head : charAt body 0 ≠ '0'.toUInt8) {inLen : Int}
    (empty : inLen.toNat - (DecimalText.sign negative).length = 0) (slot slot' : Decimal) :
    parseDecimal gmp (DecimalText.sign negative ++ body) inLen slot ≠ .ok slot' := by
  by_cases nonneg : 0 ≤ inLen
  swap
  · rw [parseDecimal, if_pos (by omega)]
    exact Parsed.noConfusion
  have copied := slice_append (DecimalText.sign negative) [] body
  rw [parseDecimal_signed gmp negative inLen digit nonneg, if_neg (fun base => head base.1),
    empty, List.take_zero]
  simp only [scanSignificand, head, false_and, if_false]
  cases negative with
  | false => exact Parsed.noConfusion
  | true =>
      have minus : gmp.mpzSetStr (cString (DecimalText.sign true)) 10 = none :=
        gmp.setStr_no_digit _ (by decide +kernel)
      rw [List.nil_append, List.length_nil, Nat.add_zero] at copied
      simp only [parseSignificand, copied, List.append_nil, minus]
      split
      · exact Parsed.noConfusion
      · rw [if_neg (by simp [DecimalText.sign])]
        exact Parsed.noConfusion

theorem parseDecimal_integer_cut (negative : Bool) {digits : List UInt8}
    (nonempty : digits ≠ []) (allDigits : DecimalText.AllDigits digits)
    (head : charAt digits 0 ≠ '0'.toUInt8) (tail : List UInt8) (inLen : Int)
    (inside : inLen.toNat - (DecimalText.sign negative).length ≤ digits.length)
    {slot slot' : Decimal}
    (parsed : parseDecimal gmp (DecimalText.sign negative ++ (digits ++ tail)) inLen slot =
      .ok slot') :
    slot'.value.natAbs < 10 ^ (inLen.toNat - (DecimalText.sign negative).length) := by
  have takenDigits : DecimalText.AllDigits
      (digits.take (inLen.toNat - (DecimalText.sign negative).length)) :=
    fun char member => allDigits char (List.mem_of_mem_take member)
  have shape : digits ++ tail =
      digits.take (inLen.toNat - (DecimalText.sign negative).length) ++
        (digits.drop (inLen.toNat - (DecimalText.sign negative).length) ++ tail) := by
    rw [← List.append_assoc, List.take_append_drop]
  have taken : (digits.take (inLen.toNat - (DecimalText.sign negative).length)).length =
      inLen.toNat - (DecimalText.sign negative).length := by
    rw [List.length_take]
    omega
  obtain ⟨char, rest, rfl⟩ := List.exists_cons_of_ne_nil nonempty
  by_cases empty : inLen.toNat - (DecimalText.sign negative).length = 0
  · exact absurd parsed (parseDecimal_no_digits gmp negative
      (isDigit_charAt_zero nonempty allDigits tail) head empty slot slot')
  · obtain ⟨count, succ⟩ := Nat.exists_eq_succ_of_ne_zero empty
    rw [shape, parseDecimal_integer gmp negative
      (by rw [succ]; simp) takenDigits (by rw [succ]; exact head) _ _ (Or.inl taken.symm),
      parseExponent_of_le _ (by omega)] at parsed
    rw [← Parsed.ok.inj parsed]
    exact signed_bound negative takenDigits taken.le

theorem parseDecimal_fraction_cut (negative : Bool) {int frac : List UInt8}
    (nonempty : int ≠ []) (intDigits : DecimalText.AllDigits int)
    (fracDigits : DecimalText.AllDigits frac)
    (head : charAt int 0 = '0'.toUInt8 → int = ['0'.toUInt8]) (tail : List UInt8)
    (inLen : Int)
    (inside : inLen.toNat - (DecimalText.sign negative).length ≤ int.length + frac.length)
    {slot slot' : Decimal}
    (parsed : parseDecimal gmp
      (DecimalText.sign negative ++ (int ++ '.'.toUInt8 :: (frac ++ tail))) inLen slot =
        .ok slot') :
    slot'.value.natAbs < 10 ^ (inLen.toNat - (DecimalText.sign negative).length + 1) := by
  by_cases before : inLen.toNat - (DecimalText.sign negative).length ≤ int.length
  · by_cases zero : charAt int 0 = '0'.toUInt8
    · obtain rfl := head zero
      exact absurd parsed (parseDecimal_octal_invalid gmp negative _ _ (by decide) (by decide)
        (by decide) (by decide) (Or.inl before) slot slot')
    · exact Nat.lt_trans
        (parseDecimal_integer_cut gmp negative nonempty intDigits zero _ _ before parsed)
        (Nat.pow_lt_pow_right (by decide) (by omega))
  · obtain ⟨count, stop⟩ : ∃ count, inLen.toNat - (DecimalText.sign negative).length =
        int.length + 1 + count :=
      ⟨inLen.toNat - (DecimalText.sign negative).length - int.length - 1, by omega⟩
    have taken : (frac.take count).length = count := by
      rw [List.length_take]
      omega
    have takenDigits : DecimalText.AllDigits (frac.take count) :=
      fun char member => fracDigits char (List.mem_of_mem_take member)
    have shape : frac ++ tail = frac.take count ++ (frac.drop count ++ tail) := by
      rw [← List.append_assoc, List.take_append_drop]
    obtain ⟨next, rest, dropped⟩ :=
      List.exists_cons_of_length_pos (l := frac.drop count) (by simp; omega)
    have digits : DecimalText.AllDigits (int ++ (frac.take count ++ [next])) := by
      intro char member
      simp only [List.mem_append, List.mem_singleton] at member
      rcases member with member | member | rfl
      · exact intDigits char member
      · exact takenDigits char member
      · exact fracDigits char (List.mem_of_mem_drop (dropped ▸ List.mem_cons_self))
    rw [shape, parseDecimal_fraction gmp negative nonempty intDigits takenDigits _ _
      (Or.inl (by omega)), parseSignificand_fraction gmp negative nonempty, dropped,
      List.cons_append, List.take_succ_cons, List.take_zero,
      mpzSetStr_digits gmp negative (by simp) digits] at parsed
    simp only [] at parsed
    rw [parseExponent_of_le _ (by omega)] at parsed
    rw [← Parsed.ok.inj parsed]
    apply signed_bound negative digits
    simp only [List.length_append, List.length_singleton, taken]
    omega

end PhpDriver
