import Mathlib.Data.List.TakeWhile
import PhpDriver.Util.DecimalRead

namespace PhpDriver

open Data

variable (gmp : Gmp)

/-! The layouts of the printer, as signs, digits and what stands between them. -/

section

variable (negative : Bool) (digits : List UInt8)

theorem length_signed_sub :
    (DecimalText.sign negative ++ digits).length - (DecimalText.sign negative).length =
      digits.length := by
  simp

theorem formatFraction_eq (point : Int) :
    formatFraction (DecimalText.sign negative ++ digits)
        (DecimalText.sign negative).length point =
      DecimalText.sign negative ++ (['0'.toUInt8] ++ '.'.toUInt8 ::
        (List.replicate (-point).toNat '0'.toUInt8 ++ digits)) := by
  simp [formatFraction]

/-- The digits up to the point stay, the rest moves behind a dot, and the byte
pushed out of the text is the terminator. -/
private theorem formatPlain_split {point : Nat} (inside : point ≤ digits.length + 1)
    (fits : (point + (DecimalText.sign negative).length : Int) ≤ intMax) :
    formatPlain (DecimalText.sign negative ++ digits)
        (DecimalText.sign negative).length point =
      .ok (DecimalText.sign negative ++ ((digits ++ [0]).take point ++ '.'.toUInt8 ::
        (digits ++ [0]).drop point).take (digits.length + 1)) := by
  have index : ((point : Int) + (DecimalText.sign negative).length).toNat =
      (DecimalText.sign negative).length + point := by omega
  have kept : (DecimalText.sign negative ++ digits ++ [0]).take
      ((DecimalText.sign negative).length + point) =
        DecimalText.sign negative ++ (digits ++ [0]).take point := by
    rw [List.append_assoc, List.take_length_add_append]
  have moved : (DecimalText.sign negative ++ digits ++ [0]).drop
      ((DecimalText.sign negative).length + point) = (digits ++ [0]).drop point := by
    rw [List.append_assoc, List.drop_length_add_append]
  have total : digits.length + (DecimalText.sign negative).length + 1 =
      (DecimalText.sign negative).length + (digits.length + 1) := by omega
  simp only [formatPlain, length_signed_sub, index, kept, moved]
  rw [if_neg (by omega), if_neg (by push_cast; omega), total, List.append_assoc,
    List.take_length_add_append]

theorem formatPlain_eq (point : Nat) (inside : point ≤ digits.length)
    (fits : (point + (DecimalText.sign negative).length : Int) ≤ intMax) :
    formatPlain (DecimalText.sign negative ++ digits)
        (DecimalText.sign negative).length point =
      .ok (DecimalText.sign negative ++ (digits.take point ++ '.'.toUInt8 ::
        digits.drop point)) := by
  have left : (digits ++ [0]).take point = digits.take point :=
    List.take_append_of_le_length inside
  have right : (digits ++ [0]).drop point = digits.drop point ++ [0] :=
    List.drop_append_of_le_length inside
  rw [formatPlain_split negative digits (by omega) fits, left, right, ← List.cons_append,
    ← List.append_assoc, List.take_left' (by simp; omega)]

theorem formatPlain_behind
    (fits : ((digits.length + 1 : Nat) + (DecimalText.sign negative).length : Int) ≤ intMax) :
    formatPlain (DecimalText.sign negative ++ digits)
        (DecimalText.sign negative).length (digits.length + 1 : Nat) =
      .ok (DecimalText.sign negative ++ (digits ++ [0])) := by
  have all : (digits ++ [0]).take (digits.length + 1) = digits ++ [0] :=
    List.take_of_length_le (by simp)
  rw [formatPlain_split negative digits (Nat.le_refl _) fits, all, List.take_left' (by simp)]

theorem formatPlain_overflow {point : Int}
    (overflows : intMax < point + (DecimalText.sign negative).length) :
    formatPlain (DecimalText.sign negative ++ digits)
      (DecimalText.sign negative).length point = .error .overflow := by
  simp only [formatPlain, if_pos overflows]

theorem formatPlain_outside (point : Int) (outside : digits.length + 1 < point) :
    ∃ fault, formatPlain (DecimalText.sign negative ++ digits)
      (DecimalText.sign negative).length point = .error fault := by
  simp only [formatPlain, length_signed_sub]
  split
  · exact ⟨_, rfl⟩
  · rw [if_pos (by push_cast; omega)]
    exact ⟨_, rfl⟩

/-! The scientific layout. The logarithm counts the digits of the exponent, or
one more for an exponent of nines alone; the terminator is then part of the text. -/

theorem clog_exponent (exponent : Nat) :
    Nat.clog 10 (exponent + 2) = (DecimalText.ofNat exponent).length ∨
      Nat.clog 10 (exponent + 2) = (DecimalText.ofNat exponent).length + 1 := by
  have positive := DecimalText.length_ofNat_pos exponent
  have below := DecimalText.lt_pow_length_ofNat exponent
  have upper : Nat.clog 10 (exponent + 2) ≤ (DecimalText.ofNat exponent).length + 1 := by
    rw [Nat.clog_le_iff_le_pow (by decide), Nat.pow_succ]
    omega
  have lower : (DecimalText.ofNat exponent).length ≤ Nat.clog 10 (exponent + 2) := by
    by_contra short
    have bound := (Nat.clog_le_iff_le_pow (b := 10) (x := exponent + 2)
      (y := (DecimalText.ofNat exponent).length - 1) (by decide)).mp (by omega)
    by_cases single : (DecimalText.ofNat exponent).length = 1
    · rw [single] at bound
      omega
    · have := (DecimalText.length_ofNat_le_iff (n := exponent)
        (k := (DecimalText.ofNat exponent).length - 1) (by omega)).mpr (by omega)
      omega
  omega

theorem formatScientific_overflow {point : Int} (overflows : intMax < (point - 1).natAbs + 2) :
    formatScientific (DecimalText.sign negative ++ digits)
      (DecimalText.sign negative).length point = .error .overflow := by
  simp only [formatScientific, if_pos overflows]

theorem formatScientific_single (digit : UInt8) (point : Int) (small : point < 0)
    (fits : (point - 1).natAbs + 2 ≤ intMax) :
    ∃ pad, (pad = [] ∨ pad = [0]) ∧
      formatScientific (DecimalText.sign negative ++ [digit])
        (DecimalText.sign negative).length point =
      .ok (DecimalText.sign negative ++ ([digit] ++ 'E'.toUInt8 :: '-'.toUInt8 ::
        (DecimalText.ofNat (point - 1).natAbs ++ pad))) := by
  have minus : point - 1 < 0 := by omega
  simp only [formatScientific, length_signed_sub, sprintfExponent, minus, if_true,
    List.length_singleton]
  rw [if_neg (by omega)]
  rcases clog_exponent (point - 1).natAbs with exact_ | more
  · refine ⟨[], Or.inl rfl, ?_⟩
    rw [exact_, List.take_left' (by simp; omega)]
    simp
  · refine ⟨[0], Or.inr rfl, ?_⟩
    rw [more, List.take_of_length_le (by simp; omega)]
    simp

theorem formatScientific_many (first second : UInt8) (rest : List UInt8) (point : Int)
    (fits : (point - 1).natAbs + 2 ≤ intMax) :
    ∃ tail, tail.length ≤ 12 ∧
      formatScientific (DecimalText.sign negative ++ first :: second :: rest)
        (DecimalText.sign negative).length point =
      .ok (DecimalText.sign negative ++ ([first] ++ '.'.toUInt8 ::
        ((second :: rest) ++ 'E'.toUInt8 :: tail))) := by
  have size : Nat.clog 10 ((point - 1).natAbs + 2) + 1 ≤ 12 := by
    rw [Nat.add_le_add_iff_right, Nat.clog_le_iff_le_pow (by decide)]
    simp only [intMax] at fits
    omega
  have kept : (DecimalText.sign negative ++ first :: second :: rest).take
      ((DecimalText.sign negative).length + 1) = DecimalText.sign negative ++ [first] := by
    rw [List.take_length_add_append]
    rfl
  have moved : (DecimalText.sign negative ++ first :: second :: rest).drop
      ((DecimalText.sign negative).length + 1) = second :: rest := by
    rw [List.drop_length_add_append]
    rfl
  have total : (DecimalText.sign negative).length + 1 + (first :: second :: rest).length + 1 +
      (Nat.clog 10 ((point - 1).natAbs + 2) + 1) =
        (DecimalText.sign negative ++ ([first] ++ '.'.toUInt8 ::
          ((second :: rest) ++ ['E'.toUInt8]))).length +
            (Nat.clog 10 ((point - 1).natAbs + 2) + 1) := by
    simp
    omega
  refine ⟨(((if point - 1 < 0 then '-'.toUInt8 else '+'.toUInt8) ::
    DecimalText.ofNat (point - 1).natAbs) ++ [0]).take
      (Nat.clog 10 ((point - 1).natAbs + 2) + 1), ?_, ?_⟩
  · exact (List.length_take_le _ _).trans size
  · simp only [formatScientific, length_signed_sub, kept, moved, total, sprintfExponent]
    have written (text : List UInt8) :
        DecimalText.sign negative ++ [first] ++ '.'.toUInt8 :: second :: rest ++
            'E'.toUInt8 :: text ++ [0] =
          (DecimalText.sign negative ++ ([first] ++ '.'.toUInt8 ::
            ((second :: rest) ++ ['E'.toUInt8]))) ++ (text ++ [0]) := by
      simp
    rw [if_neg (by omega), if_neg (by simp), written, List.take_length_add_append]
    simp

end

def numDigits (value : Int) : Nat :=
  (DecimalText.ofNat value.natAbs).length

def signLength (value : Int) : Nat :=
  (DecimalText.sign (value < 0)).length

theorem formatDecimal_zero_scale (value : Int) :
    formatDecimal gmp value 0 = .ok (DecimalText.sign (value < 0) ++
      DecimalText.ofNat value.natAbs) := by
  rw [formatDecimal, if_pos rfl, formatInteger, gmp.getStr_eq, DecimalText.ofInt]

theorem formatDecimal_of_pos (value : Int) {scale : BitVec 64} (positive : 0 < scale.toInt) :
    formatDecimal gmp value scale =
      let tmp := DecimalText.sign (value < 0) ++ DecimalText.ofNat value.natAbs
      let point := wrapInt (numDigits value - scale.toInt)
      if point = intMin then .error .overflow
      else if -6 ≤ point - 1 then
        if point ≤ 0 then .ok (formatFraction tmp (signLength value) point)
        else formatPlain tmp (signLength value) point
      else formatScientific tmp (signLength value) point := by
  have nonzero : scale ≠ 0 := by
    rintro rfl
    exact absurd positive (by decide)
  have negative : (if value.sign < 0 then 1 else 0) = signLength value := by
    simp only [Int.sign_neg_iff]
    by_cases below : value < 0 <;> simp [signLength, DecimalText.sign, below]
  have count : (DecimalText.sign (value < 0) ++ DecimalText.ofNat value.natAbs).length -
      signLength value = numDigits value := by
    simp [signLength, numDigits]
  rw [formatDecimal, if_neg nonzero]
  simp only [gmp.getStr_eq, DecimalText.ofInt, negative, count]
  rw [if_neg (by omega)]

theorem parse_printed_fraction (negative : Bool) {int frac : List UInt8}
    (nonempty : int ≠ []) (intDigits : DecimalText.AllDigits int)
    (fracDigits : DecimalText.AllDigits frac) {text : List UInt8}
    (shape : text = DecimalText.sign negative ++ (int ++ '.'.toUInt8 :: frac))
    (fits : text.length ≤ intMax) (slot : Decimal) :
    parseDecimal gmp text (wrapInt text.length) slot =
      .ok { value := DecimalText.signed negative (DecimalText.toNat (int ++ frac)),
            scale := BitVec.ofInt 64 frac.length } := by
  have digits : DecimalText.AllDigits (int ++ frac) := by
    intro char member
    exact (List.mem_append.mp member).elim (intDigits char) (fracDigits char)
  have length : text.length = (DecimalText.sign negative).length + int.length + 1 +
      frac.length := by
    rw [shape]
    simp
    omega
  have whole := parseDecimal_fraction gmp negative nonempty intDigits fracDigits []
    text.length (Or.inl (by omega)) slot
  rw [parseSignificand_fraction gmp negative nonempty, List.take_nil, List.append_nil,
    mpzSetStr_digits gmp negative (by simp [nonempty]) digits] at whole
  simp only [] at whole
  rw [parseExponent_of_le _ (by omega), ← shape] at whole
  rw [wrapInt_of_range (by simp only [intMin]; omega) fits, whole]

theorem head_ofNat_natAbs {value : Int} (nonzero : value ≠ 0) :
    charAt (DecimalText.ofNat value.natAbs) 0 ≠ '0'.toUInt8 := by
  have first := DecimalText.head?_ofNat_ne_zero (n := value.natAbs) (by omega)
  obtain ⟨char, rest, digits⟩ :=
    List.exists_cons_of_ne_nil (DecimalText.ofNat_ne_nil value.natAbs)
  rw [digits] at first ⊢
  exact fun same => first (congrArg some same)

theorem parse_printed_integer (value : Int) {text : List UInt8}
    (shape : text = DecimalText.sign (value < 0) ++ DecimalText.ofNat value.natAbs)
    (fits : text.length ≤ intMax) (slot : Decimal) :
    parseDecimal gmp text (wrapInt text.length) slot = .ok { value, scale := 0 } := by
  rw [wrapInt_of_range (by simp only [intMin]; omega) fits]
  by_cases zero : value = 0
  · subst zero
    rw [shape]
    exact parseDecimal_zero gmp rfl slot
  · have length : text.length = (DecimalText.sign (value < 0)).length +
        (DecimalText.ofNat value.natAbs).length := by
      rw [shape, List.length_append]
    have whole := parseDecimal_integer gmp (value < 0)
      (DecimalText.ofNat_ne_nil value.natAbs) (DecimalText.allDigits_ofNat value.natAbs)
      (head_ofNat_natAbs zero) [] text.length (Or.inl (by omega)) slot
    rw [List.append_nil, ← shape, parseExponent_of_le _ (by omega),
      DecimalText.toNat_ofNat, DecimalText.signed_natAbs] at whole
    exact whole

theorem sscanfInt_minus {digits : List UInt8} (nonempty : digits ≠ [])
    (allDigits : DecimalText.AllDigits digits) :
    sscanfInt ('-'.toUInt8 :: digits) = .converted (-(DecimalText.toNat digits : Int)) := by
  have taken : digits.takeWhile DecimalText.isDigit = digits :=
    List.takeWhile_eq_self_iff.mpr allDigits
  have space : isSpace '-'.toUInt8 = false := by decide
  simp [sscanfInt, space, taken, nonempty]

theorem parse_printed_exponent {value : Int} (nonzero : value ≠ 0) (exponent : Nat) (small : exponent ≤ intMax)
    {pad text : List UInt8} (padding : pad = [] ∨ pad = [0])
    (shape : text = DecimalText.sign (value < 0) ++ (DecimalText.ofNat value.natAbs ++
      'E'.toUInt8 :: '-'.toUInt8 :: (DecimalText.ofNat exponent ++ pad)))
    (fits : text.length ≤ intMax) (slot : Decimal) :
    parseDecimal gmp text (wrapInt text.length) slot =
      .ok { value, scale := BitVec.ofInt 64 exponent } := by
  have positive := DecimalText.length_ofNat_pos exponent
  have length : text.length = (DecimalText.sign (value < 0)).length +
      (DecimalText.ofNat value.natAbs).length + 2 + (DecimalText.ofNat exponent).length +
        pad.length := by
    rw [shape]
    simp
    omega
  have whole := parseDecimal_integer gmp (value < 0)
    (DecimalText.ofNat_ne_nil value.natAbs) (DecimalText.allDigits_ofNat value.natAbs)
    (head_ofNat_natAbs nonzero) ('E'.toUInt8 :: '-'.toUInt8 ::
      (DecimalText.ofNat exponent ++ pad)) text.length
    (Or.inr ⟨by omega, rfl⟩) slot
  have behind : text.drop ((DecimalText.sign (value < 0)).length +
      (DecimalText.ofNat value.natAbs).length + 1) =
        '-'.toUInt8 :: (DecimalText.ofNat exponent ++ pad) := by
    rw [shape, ← List.append_assoc, ← List.length_append, List.drop_length_add_append]
    rfl
  have minus : charAt text ((DecimalText.sign (value < 0)).length +
      (DecimalText.ofNat value.natAbs).length + 1) = '-'.toUInt8 := by
    rw [charAt, List.getD_eq_getElem?_getD, ← List.head?_drop, behind]
    rfl
  have terminated : cString ('-'.toUInt8 :: (DecimalText.ofNat exponent ++ pad)) =
      '-'.toUInt8 :: DecimalText.ofNat exponent := by
    have padded : cString pad = [] := by
      rcases padding with rfl | rfl <;> rfl
    have digits := cString_digits_append (DecimalText.allDigits_ofNat exponent) pad
    rw [padded, List.append_nil] at digits
    change '-'.toUInt8 :: cString _ = _
    rw [digits]
  have negated : (0 : BitVec 64) - BitVec.ofInt 64 (-(exponent : Int)) =
      BitVec.ofInt 64 exponent := by
    rw [BitVec.ofInt_neg]
    simp
  have inside : ((DecimalText.sign (value < 0)).length +
      (DecimalText.ofNat value.natAbs).length : Int) < text.length := by omega
  have digits : ¬ (text.length : Int) ≤ ((DecimalText.sign (value < 0)).length +
      (DecimalText.ofNat value.natAbs).length + 1 : Nat) := by omega
  have range : intMin ≤ -(exponent : Int) ∧ -(exponent : Int) ≤ intMax := by
    simp only [intMin, intMax] at *
    omega
  have plus : '-'.toUInt8 ≠ '+'.toUInt8 := by decide
  rw [wrapInt_of_range (by simp only [intMin]; omega) fits]
  rw [← shape, DecimalText.toNat_ofNat, DecimalText.signed_natAbs, parseExponent,
    if_pos (by exact_mod_cast inside)] at whole
  simp only [minus, plus, if_false, behind, terminated, digits,
    sscanfInt_minus (DecimalText.ofNat_ne_nil exponent) (DecimalText.allDigits_ofNat exponent),
    DecimalText.toNat_ofNat, range, and_self, if_true, negated] at whole
  exact whole

/-- With a dot and an exponent the copied digits end in the `E`. -/
theorem parse_printed_scientific (negative : Bool) {int frac tail text : List UInt8}
    (nonempty : int ≠ []) (intDigits : DecimalText.AllDigits int)
    (fracDigits : DecimalText.AllDigits frac)
    (shape : text = DecimalText.sign negative ++ (int ++ '.'.toUInt8 ::
      (frac ++ 'E'.toUInt8 :: tail)))
    (fits : text.length ≤ intMax) (slot slot' : Decimal) :
    parseDecimal gmp text (wrapInt text.length) slot ≠ .ok slot' := by
  have length : text.length = (DecimalText.sign negative).length + int.length + 1 +
      frac.length + 1 + tail.length := by
    rw [shape]
    simp
    omega
  have digits : DecimalText.AllDigits (int ++ frac) := by
    intro char member
    exact (List.mem_append.mp member).elim (intDigits char) (fracDigits char)
  have invalid : gmp.mpzSetStr (cString (DecimalText.sign negative ++
      (int ++ (frac ++ ('E'.toUInt8 :: tail).take 1)))) 10 = none := by
    apply gmp.setStr_invalid _ 'E'.toUInt8 _ (by decide) (by decide) (by decide)
    rw [cString_sign_append, ← List.append_assoc int, cString_digits_append digits]
    have copied : cString (('E'.toUInt8 :: tail).take 1) = ['E'.toUInt8] := rfl
    rw [copied]
    simp
  rw [wrapInt_of_range (by simp only [intMin]; omega) fits, shape,
    parseDecimal_fraction gmp negative nonempty intDigits fracDigits ('E'.toUInt8 :: tail) _
      (Or.inr ⟨by rw [← shape]; omega, rfl⟩),
    parseSignificand_fraction gmp negative nonempty, invalid]
  exact Parsed.noConfusion

/-! Texts beyond `INT_MAX` bytes. -/

private theorem cut_is_short {length digits : Nat} (sign : Nat) (long : intMax < length)
    (close : length ≤ digits + 20) :
    (wrapInt length).toNat - sign + 2 ≤ digits := by
  have less := wrapInt_le_sub long
  simp only [intMax] at long
  omega

private theorem pow_le_natAbs {value : Int} {k : Nat} (few : k + 2 ≤ numDigits value) :
    10 ^ (k + 1) ≤ value.natAbs := by
  by_contra small
  have := (DecimalText.length_ofNat_le_iff (n := value.natAbs) (k := k + 1) (by omega)).mpr
    (by omega)
  simp only [numDigits] at few
  omega

theorem parse_long_integer (value : Int) (tail : List UInt8) {text : List UInt8}
    (shape : text = DecimalText.sign (value < 0) ++
      (DecimalText.ofNat value.natAbs ++ tail))
    (long : intMax < text.length) (close : text.length ≤ numDigits value + 20)
    (slot slot' : Decimal)
    (parsed : parseDecimal gmp text (wrapInt text.length) slot = .ok slot') :
    slot'.value ≠ value := by
  have short := cut_is_short (DecimalText.sign (value < 0)).length long close
  have large := pow_le_natAbs short
  have nonzero : value ≠ 0 := by
    rintro rfl
    simp at large
  have bound := parseDecimal_integer_cut gmp (value < 0)
    (DecimalText.ofNat_ne_nil value.natAbs) (DecimalText.allDigits_ofNat value.natAbs)
    (head_ofNat_natAbs nonzero) tail (wrapInt text.length)
    (by simp only [numDigits] at short; omega) (by rw [← shape]; exact parsed)
  rintro rfl
  have := Nat.pow_lt_pow_right (a := 10) (by decide) (Nat.lt_succ_self
    ((wrapInt text.length).toNat - (DecimalText.sign (slot'.value < 0)).length))
  omega

theorem parse_long_fraction (value : Int) {int frac : List UInt8} (tail : List UInt8)
    {text : List UInt8}
    (nonempty : int ≠ []) (intDigits : DecimalText.AllDigits int)
    (fracDigits : DecimalText.AllDigits frac)
    (head : charAt int 0 = '0'.toUInt8 → int = ['0'.toUInt8])
    (enough : numDigits value ≤ int.length + frac.length)
    (shape : text = DecimalText.sign (value < 0) ++ (int ++ '.'.toUInt8 :: (frac ++ tail)))
    (long : intMax < text.length) (close : text.length ≤ numDigits value + 20)
    (slot slot' : Decimal)
    (parsed : parseDecimal gmp text (wrapInt text.length) slot = .ok slot') :
    slot'.value ≠ value := by
  have short := cut_is_short (DecimalText.sign (value < 0)).length long close
  have large := pow_le_natAbs short
  have bound := parseDecimal_fraction_cut gmp (value < 0) nonempty intDigits fracDigits
    head tail (wrapInt text.length) (by omega) (by rw [← shape]; exact parsed)
  rintro rfl
  omega

theorem parse_printed_nul (negative : Bool) {digits text : List UInt8}
    (nonempty : digits ≠ []) (allDigits : DecimalText.AllDigits digits)
    (shape : text = DecimalText.sign negative ++ (digits ++ [0]))
    (fits : text.length ≤ intMax) (slot slot' : Decimal) :
    parseDecimal gmp text (wrapInt text.length) slot ≠ .ok slot' := by
  have second : ¬ (charAt (digits ++ [0]) 1 = 'b'.toUInt8 ∨
      charAt (digits ++ [0]) 1 = 'x'.toUInt8) := by
    match digits, nonempty with
    | [_], _ =>
        change ¬ ((0 : UInt8) = 'b'.toUInt8 ∨ (0 : UInt8) = 'x'.toUInt8)
        decide
    | _ :: other :: _, _ => exact not_base_letter (Or.inr (allDigits other (by simp)))
  have scan : scanSignificand ((digits ++ [0]).take
      ((text.length : Int).toNat - (DecimalText.sign negative).length))
      (DecimalText.sign negative).length none =
        .error (.unrecognizedCharacter 0
          ((DecimalText.sign negative).length + digits.length)) := by
    rw [List.take_of_length_le (by rw [shape]; simp; omega),
      scanSignificand_digits allDigits]
    rfl
  have read := parseDecimal_signed gmp negative text.length
    (isDigit_charAt_zero nonempty allDigits [0]) (by omega) slot
  rw [← shape, if_neg fun base => second base.2, scan] at read
  rw [wrapInt_of_range (by simp only [intMin]; omega) fits, read]
  exact Parsed.noConfusion

/-- Printing succeeds and the printed text is read as the same number and scale. -/
def DecimalRoundTrips (value : Int) (scale : BitVec 64) : Prop :=
  ∃ text, formatDecimal gmp value scale = .ok text ∧
    ∀ slot, parseDecimal gmp text (wrapInt text.length) slot = .ok { value, scale }

def plainLength (value : Int) (scale : BitVec 64) : Int :=
  signLength value +
    if scale = 0 then (numDigits value : Int)
    else max (numDigits value + 1) (scale.toInt + 2)

/-- The number is printed in plain notation and its text is no longer than an `int`
counts, or it is printed as one non-zero digit with an exponent the printer can
compute. -/
def PrintsReadably (value : Int) (scale : BitVec 64) : Prop :=
  (scale.toInt ≤ numDigits value + 5 ∧ plainLength value scale ≤ intMax) ∨
    (1 ≤ value.natAbs ∧ value.natAbs ≤ 9 ∧ scale.toInt ≤ intMax - 2)

theorem signLength_le (value : Int) : signLength value ≤ 1 := by
  rw [signLength, DecimalText.sign]
  split <;> decide

private theorem ofInt_eq_iff {n : Nat} (small : n ≤ intMax) {scale : BitVec 64} :
    BitVec.ofInt 64 n = scale ↔ (n : Int) = scale.toInt := by
  rw [← BitVec.toInt_inj, BitVec.toInt_ofInt, Int.bmod_eq_of_le] <;>
    simp only [intMax] at small <;> omega

theorem decimalRoundTrips_zero_scale (value : Int) :
    DecimalRoundTrips gmp value 0 ↔ PrintsReadably value 0 := by
  have sign := signLength_le value
  have length : (DecimalText.sign (value < 0) ++
      DecimalText.ofNat value.natAbs).length = signLength value + numDigits value :=
    List.length_append
  have single : value.natAbs ≤ 9 ↔ numDigits value ≤ 1 := by
    rw [numDigits, DecimalText.length_ofNat_le_iff (by decide)]
    omega
  have readable : PrintsReadably value 0 ↔
      (signLength value + numDigits value : Int) ≤ intMax := by
    have zero : (0 : BitVec 64).toInt = 0 := rfl
    simp only [PrintsReadably, plainLength, if_true, zero, intMax]
    omega
  rw [readable]
  constructor
  · rintro ⟨text, printed, parsed⟩
    rw [formatDecimal_zero_scale] at printed
    obtain rfl := Except.ok.inj printed
    by_contra long
    exact parse_long_integer gmp value [] (by rw [List.append_nil])
      (by omega) (by omega) _ _ (parsed ⟨0, 0⟩) rfl
  · intro fits
    exact ⟨_, formatDecimal_zero_scale gmp value, parse_printed_integer gmp value rfl (by omega)⟩

private theorem roundTrips_of_printed {value : Int} {scale : BitVec 64} {text : List UInt8}
    (printed : formatDecimal gmp value scale = .ok text) :
    DecimalRoundTrips gmp value scale ↔
      ∀ slot, parseDecimal gmp text (wrapInt text.length) slot = .ok { value, scale } := by
  constructor
  · rintro ⟨other, printedOther, parsed⟩
    obtain rfl := Except.ok.inj (printedOther.symm.trans printed)
    exact parsed
  · exact fun parsed => ⟨text, printed, parsed⟩

private theorem not_roundTrips_of_fault {value : Int} {scale : BitVec 64}
    {fault : FormatFault} (printed : formatDecimal gmp value scale = .error fault) :
    ¬ DecimalRoundTrips gmp value scale := by
  rintro ⟨text, printedText, _⟩
  rw [printed] at printedText
  cases printedText

section

variable {value : Int} {scale : BitVec 64}

private theorem numDigits_le_one_iff (value : Int) : numDigits value ≤ 1 ↔ value.natAbs ≤ 9 := by
  rw [numDigits, DecimalText.length_ofNat_le_iff (by decide)]
  omega

private theorem printsReadably_iff {point : Int}
    (position : point = wrapInt (numDigits value - scale.toInt))
    (positive : 0 < scale.toInt) :
    PrintsReadably value scale ↔ point = numDigits value - scale.toInt ∧
      ((-5 ≤ point ∧
        signLength value + max (numDigits value + 1 : Int) (scale.toInt + 2) ≤ intMax) ∨
      (numDigits value = 1 ∧ value ≠ 0 ∧ scale.toInt ≤ intMax - 2)) := by
  have nonzero : scale ≠ 0 := by
    rintro rfl
    exact absurd positive (by decide)
  have digits : 0 < numDigits value := DecimalText.length_ofNat_pos _
  have single := numDigits_le_one_iff value
  have unwrapped := wrapInt_eq_self_iff (n := numDigits value - scale.toInt)
  rw [← position] at unwrapped
  simp only [PrintsReadably, plainLength, nonzero, if_false]
  rw [unwrapped]
  simp only [intMin, intMax] at *
  constructor
  · rintro (⟨near, short⟩ | ⟨low, high, small⟩)
    · have := unwrapped.mpr ⟨by omega, by omega⟩
      exact ⟨⟨by omega, by omega⟩, Or.inl ⟨by omega, short⟩⟩
    · exact ⟨⟨by omega, by omega⟩, Or.inr ⟨by omega, by omega, small⟩⟩
  · rintro ⟨range, ⟨near, short⟩ | ⟨one, other, small⟩⟩
    · have := unwrapped.mpr range
      exact Or.inl ⟨by omega, short⟩
    · exact Or.inr ⟨by omega, by omega, small⟩

/-- The printed digits with a dot: the scale read back is the number of digits
behind the dot. -/
private theorem roundTrips_dot {int frac text : List UInt8} (nonempty : int ≠ [])
    (intDigits : DecimalText.AllDigits int) (fracDigits : DecimalText.AllDigits frac)
    (head : charAt int 0 = '0'.toUInt8 → int = ['0'.toUInt8])
    (enough : numDigits value ≤ int.length + frac.length)
    (close : int.length + frac.length ≤ numDigits value + 8)
    (same : DecimalText.toNat (int ++ frac) = value.natAbs)
    (shape : text = DecimalText.sign (value < 0) ++ (int ++ '.'.toUInt8 :: frac))
    (printed : formatDecimal gmp value scale = .ok text) :
    DecimalRoundTrips gmp value scale ↔
      text.length ≤ intMax ∧ (frac.length : Int) = scale.toInt := by
  have length : text.length = signLength value + int.length + 1 + frac.length := by
    rw [shape]
    simp [signLength]
    omega
  have sign := signLength_le value
  rw [roundTrips_of_printed gmp printed]
  constructor
  · intro parsed
    have fits : text.length ≤ intMax := by
      by_contra long
      exact parse_long_fraction gmp value [] nonempty intDigits fracDigits
        head enough (by rw [List.append_nil]; exact shape) (by omega) (by omega) _ _
        (parsed ⟨0, 0⟩) rfl
    refine ⟨fits, ?_⟩
    have read := (parsed ⟨0, 0⟩).symm.trans (parse_printed_fraction gmp (value < 0) nonempty
      intDigits fracDigits shape fits ⟨0, 0⟩)
    exact (ofInt_eq_iff (by omega)).mp (congrArg Decimal.scale (Parsed.ok.inj read)).symm
  · rintro ⟨fits, count⟩ slot
    rw [parse_printed_fraction gmp (value < 0) nonempty intDigits fracDigits shape fits slot,
      same, DecimalText.signed_natAbs, (ofInt_eq_iff (by omega)).mpr count]

/-! One lemma for each layout the position of the dot selects. -/

private theorem roundTrips_fraction_layout {point : Int} (positive : 0 < scale.toInt)
    (position : point = wrapInt (numDigits value - scale.toInt))
    (low : -5 ≤ point) (high : point ≤ 0) :
    DecimalRoundTrips gmp value scale ↔ PrintsReadably value scale := by
  have digits := DecimalText.length_ofNat_pos value.natAbs
  have sign := signLength_le value
  have printed : formatDecimal gmp value scale = .ok (DecimalText.sign (value < 0) ++
      (['0'.toUInt8] ++ '.'.toUInt8 :: (List.replicate (-point).toNat '0'.toUInt8 ++
        DecimalText.ofNat value.natAbs))) := by
    rw [formatDecimal_of_pos gmp value positive]
    simp only [← position]
    rw [if_neg (by simp only [intMin]; omega), if_pos (by omega), if_pos high]
    exact congrArg _ (formatFraction_eq _ _ point)
  have zeros : DecimalText.AllDigits (List.replicate (-point).toNat '0'.toUInt8 ++
      DecimalText.ofNat value.natAbs) := by
    intro char member
    rcases List.mem_append.mp member with zero | digit
    · obtain rfl := (List.mem_replicate.mp zero).2
      decide
    · exact DecimalText.allDigits_ofNat _ char digit
  have same : DecimalText.toNat (['0'.toUInt8] ++ (List.replicate (-point).toNat '0'.toUInt8 ++
      DecimalText.ofNat value.natAbs)) = value.natAbs := by
    have front : ['0'.toUInt8] ++ (List.replicate (-point).toNat '0'.toUInt8 ++
        DecimalText.ofNat value.natAbs) =
        List.replicate ((-point).toNat + 1) (DecimalText.digitChar 0) ++
          DecimalText.ofNat value.natAbs := rfl
    rw [front, DecimalText.toNat_replicate_zero_append, DecimalText.toNat_ofNat]
  have count : (List.replicate (-point).toNat '0'.toUInt8 ++
      DecimalText.ofNat value.natAbs).length = (-point).toNat + numDigits value := by
    simp [numDigits]
  rw [roundTrips_dot gmp (by simp) (by decide +kernel) zeros (fun _ => rfl)
    (by rw [count]; simp; omega) (by rw [count]; simp; omega) same rfl printed,
    printsReadably_iff position positive, count]
  have length : (DecimalText.sign (value < 0) ++ (['0'.toUInt8] ++ '.'.toUInt8 ::
      (List.replicate (-point).toNat '0'.toUInt8 ++ DecimalText.ofNat value.natAbs))).length =
        signLength value + 2 + (-point).toNat + numDigits value := by
    simp [signLength, numDigits]
    omega
  rw [length]
  simp only [numDigits, intMax] at *
  omega

private theorem roundTrips_plain_layout {point : Int} (positive : 0 < scale.toInt)
    (position : point = wrapInt (numDigits value - scale.toInt)) (low : 0 < point) :
    DecimalRoundTrips gmp value scale ↔ PrintsReadably value scale := by
  have digits := DecimalText.allDigits_ofNat value.natAbs
  have nonempty := DecimalText.ofNat_ne_nil value.natAbs
  have sign := signLength_le value
  have printed : formatDecimal gmp value scale =
      formatPlain (DecimalText.sign (value < 0) ++ DecimalText.ofNat value.natAbs)
        (signLength value) point := by
    rw [formatDecimal_of_pos gmp value positive]
    simp only [← position]
    rw [if_neg (by simp only [intMin]; omega), if_pos (by omega), if_neg (by omega)]
  have unreadable (beyond : numDigits value < point ∨ intMax < point + signLength value) :
      ¬ PrintsReadably value scale := by
    rw [printsReadably_iff position positive]
    omega
  by_cases overflows : intMax < point + signLength value
  · have faulty := formatPlain_overflow (value < 0) (DecimalText.ofNat value.natAbs) overflows
    exact iff_of_false (not_roundTrips_of_fault gmp (printed.trans faulty))
      (unreadable (Or.inr overflows))
  by_cases inside : point ≤ numDigits value
  · obtain ⟨index, rfl⟩ := Int.eq_ofNat_of_zero_le low.le
    have shape := formatPlain_eq (value < 0) (DecimalText.ofNat value.natAbs)
      index (by simp only [numDigits] at inside; omega)
      (by simp only [signLength] at overflows; omega)
    have taken : ((DecimalText.ofNat value.natAbs).take index).length = index := by
      rw [List.length_take]
      simp only [numDigits] at inside
      omega
    have dropped : ((DecimalText.ofNat value.natAbs).drop index).length =
        numDigits value - index := List.length_drop
    have head : charAt ((DecimalText.ofNat value.natAbs).take index) 0 = '0'.toUInt8 →
        (DecimalText.ofNat value.natAbs).take index = ['0'.toUInt8] := by
      intro zero
      obtain ⟨count, rfl⟩ := Nat.exists_eq_succ_of_ne_zero (n := index) (by omega)
      by_cases nonzero : value = 0
      · subst nonzero
        exact List.take_of_length_le (by change 1 ≤ count + 1; omega)
      · obtain ⟨char, rest, equation⟩ := List.exists_cons_of_ne_nil nonempty
        have first := head_ofNat_natAbs nonzero
        rw [equation] at zero first
        exact absurd zero first
    have length : (DecimalText.sign (value < 0) ++
        ((DecimalText.ofNat value.natAbs).take index ++ '.'.toUInt8 ::
          (DecimalText.ofNat value.natAbs).drop index)).length =
            signLength value + numDigits value + 1 := by
      rw [List.length_append, List.length_append, List.length_cons, taken, dropped]
      simp only [signLength]
      omega
    rw [roundTrips_dot gmp (List.ne_nil_of_length_pos (by omega))
      (fun char member => digits char (List.mem_of_mem_take member))
      (fun char member => digits char (List.mem_of_mem_drop member)) head
      (by omega) (by omega) (by rw [List.take_append_drop, DecimalText.toNat_ofNat]) rfl
      (printed.trans shape), printsReadably_iff position positive, length, dropped]
    omega
  by_cases behind : point = numDigits value + 1
  · have shape := formatPlain_behind (value < 0) (DecimalText.ofNat value.natAbs)
      (by simp only [numDigits, signLength] at *; omega)
    have cast : ((DecimalText.ofNat value.natAbs).length + 1 : Nat) = point := by
      simp only [numDigits] at behind
      omega
    rw [cast] at shape
    refine iff_of_false ?_ (unreadable (Or.inl (by omega)))
    rw [roundTrips_of_printed gmp (printed.trans shape)]
    intro parsed
    have length : (DecimalText.sign (value < 0) ++
        (DecimalText.ofNat value.natAbs ++ [0])).length =
          signLength value + numDigits value + 1 := by
      simp [signLength, numDigits]
      omega
    by_cases long : intMax < (DecimalText.sign (value < 0) ++
        (DecimalText.ofNat value.natAbs ++ [0])).length
    · exact parse_long_integer gmp value _ rfl long (by omega) _ _ (parsed ⟨0, 0⟩) rfl
    · exact parse_printed_nul gmp (value < 0) nonempty digits rfl (by omega) _ _ (parsed ⟨0, 0⟩)
  · obtain ⟨fault, faulty⟩ := formatPlain_outside (value < 0) (DecimalText.ofNat value.natAbs)
      point (by simp only [numDigits] at *; omega)
    exact iff_of_false (not_roundTrips_of_fault gmp (printed.trans faulty))
      (unreadable (Or.inl (by omega)))

private theorem roundTrips_scientific_layout {point : Int} (positive : 0 < scale.toInt)
    (position : point = wrapInt (numDigits value - scale.toInt))
    (range : point ≠ intMin) (high : point < -5) :
    DecimalRoundTrips gmp value scale ↔ PrintsReadably value scale := by
  have digits := DecimalText.allDigits_ofNat value.natAbs
  have nonempty := DecimalText.ofNat_ne_nil value.natAbs
  have sign := signLength_le value
  have printed : formatDecimal gmp value scale =
      formatScientific (DecimalText.sign (value < 0) ++ DecimalText.ofNat value.natAbs)
        (signLength value) point := by
    rw [formatDecimal_of_pos gmp value positive]
    simp only [← position]
    rw [if_neg range, if_neg (by omega)]
  by_cases overflows : intMax < (point - 1).natAbs + 2
  · have faulty := formatScientific_overflow (value < 0) (DecimalText.ofNat value.natAbs)
      overflows
    refine iff_of_false (not_roundTrips_of_fault gmp (printed.trans faulty)) ?_
    rw [printsReadably_iff position positive]
    omega
  match equation : DecimalText.ofNat value.natAbs, nonempty with
  | [digit], _ =>
      have one : numDigits value = 1 := by rw [numDigits, equation]; rfl
      obtain ⟨pad, padding, shape⟩ := formatScientific_single (value < 0) digit point
        (by omega) (by omega)
      rw [← equation] at shape
      rw [roundTrips_of_printed gmp (printed.trans shape),
        printsReadably_iff position positive]
      by_cases zero : value = 0
      · refine iff_of_false ?_ (by omega)
        subst zero
        intro parsed
        exact parseDecimal_octal_invalid gmp false 'E'.toUInt8 _ (by decide)
          (by decide) (by decide) (by decide) (Or.inr rfl) _ _ (parsed ⟨0, 0⟩)
      · have length : (DecimalText.sign (value < 0) ++ (DecimalText.ofNat value.natAbs ++
            'E'.toUInt8 :: '-'.toUInt8 ::
              (DecimalText.ofNat (point - 1).natAbs ++ pad))).length ≤ intMax := by
          have short : (DecimalText.ofNat (point - 1).natAbs).length ≤ 10 := by
            rw [DecimalText.length_ofNat_le_iff (by decide)]
            simp only [intMax] at overflows
            omega
          have padLength : pad.length ≤ 1 := by
            rcases padding with rfl | rfl <;> decide
          have signShort : (DecimalText.sign (value < 0)).length ≤ 1 := sign
          simp only [List.length_append, List.length_cons, intMax, equation]
          simp only [List.length_nil]
          omega
        have read := parse_printed_exponent gmp zero (point - 1).natAbs
          (by omega) padding rfl length
        constructor
        · intro parsed
          have same := (parsed ⟨0, 0⟩).symm.trans (read ⟨0, 0⟩)
          have count : ((point - 1).natAbs : Int) = scale.toInt :=
            (ofInt_eq_iff (by omega)).mp (congrArg Decimal.scale (Parsed.ok.inj same)).symm
          omega
        · rintro ⟨unwrapped, _⟩ slot
          have count : ((point - 1).natAbs : Int) = scale.toInt := by omega
          rw [read slot, (ofInt_eq_iff (by omega)).mpr count]
  | first :: second :: rest, _ =>
      have many : 1 < numDigits value := by rw [numDigits, equation]; simp
      obtain ⟨tail, tailLength, shape⟩ := formatScientific_many (value < 0) first second rest
        point (by omega)
      rw [← equation] at shape
      refine iff_of_false ?_ (by rw [printsReadably_iff position positive]; omega)
      rw [roundTrips_of_printed gmp (printed.trans shape)]
      intro parsed
      have firstDigit : DecimalText.AllDigits [first] := fun char member =>
        digits char (by rw [equation]; simp_all)
      have restDigits : DecimalText.AllDigits (second :: rest) := fun char member =>
        digits char (by rw [equation]; exact List.mem_cons_of_mem _ member)
      have count : numDigits value = rest.length + 2 := by rw [numDigits, equation]; rfl
      by_cases long : intMax < (DecimalText.sign (value < 0) ++ ([first] ++ '.'.toUInt8 ::
          ((second :: rest) ++ 'E'.toUInt8 :: tail))).length
      · refine parse_long_fraction gmp value _ (by simp) firstDigit restDigits ?_
          (by simp; omega) rfl long ?_ _ _ (parsed ⟨0, 0⟩) rfl
        · rintro rfl
          rfl
        · simp only [List.length_append, List.length_cons, List.length_nil]
          simp only [signLength] at sign
          omega
      · exact parse_printed_scientific gmp (value < 0) (by simp) firstDigit restDigits rfl
          (by omega) _ _ (parsed ⟨0, 0⟩)

end

/-- The text of a decimal is read back as the same decimal exactly in plain notation
and, in scientific notation, for a single non-zero digit. -/
theorem decimalRoundTrips_iff (value : Int) (scale : BitVec 64) (nonneg : 0 ≤ scale.toInt) :
    DecimalRoundTrips gmp value scale ↔ PrintsReadably value scale := by
  rcases nonneg.eq_or_lt with zero | positive
  · obtain rfl : scale = 0 := BitVec.eq_of_toInt_eq zero.symm
    exact decimalRoundTrips_zero_scale gmp value
  · by_cases range : wrapInt (numDigits value - scale.toInt) = intMin
    · have printed : formatDecimal gmp value scale = .error .overflow := by
        rw [formatDecimal_of_pos gmp value positive]
        simp only [range, if_true]
      refine iff_of_false (not_roundTrips_of_fault gmp printed) ?_
      rw [printsReadably_iff rfl positive, range]
      simp only [intMin, intMax]
      omega
    rcases lt_or_ge (wrapInt (numDigits value - scale.toInt)) (-5) with small | near
    · exact roundTrips_scientific_layout gmp positive rfl range small
    · rcases le_or_gt (wrapInt (numDigits value - scale.toInt)) 0 with high | low
      · exact roundTrips_fraction_layout gmp positive rfl near high
      · exact roundTrips_plain_layout gmp positive rfl low

theorem decimalRoundTrips_negative_fraction :
    DecimalRoundTrips Gmp.reference (-5) 3 := by
  apply (decimalRoundTrips_iff Gmp.reference (-5) 3 (by decide)).mpr
  exact Or.inl (by decide +kernel)

/-- `9.5E-8` is printed and refused: what is copied behind the dot ends in `E`. -/
theorem decimal_95_scale_9_is_refused :
    formatDecimal Gmp.reference 95 9 = .ok (ascii "9.5E-8") ∧
      parseDecimal Gmp.reference (ascii "9.5E-8") 6 { value := 0, scale := 0 } =
        .exception (.integerPart (ascii "95E")) { value := 0, scale := 1 } ∧
      ¬ DecimalRoundTrips Gmp.reference 95 9 := by
  have printed : formatDecimal Gmp.reference 95 9 = .ok (ascii "9.5E-8") := by decide +kernel
  have refused : parseDecimal Gmp.reference (ascii "9.5E-8") 6 { value := 0, scale := 0 } =
      .exception (.integerPart (ascii "95E")) { value := 0, scale := 1 } := by decide +kernel
  refine ⟨printed, refused, ?_⟩
  rintro ⟨text, printedText, parsed⟩
  obtain rfl := Except.ok.inj (printed.symm.trans printedText)
  have length : wrapInt ((ascii "9.5E-8").length : Int) = 6 := by decide
  have read := parsed { value := 0, scale := 0 }
  rw [length, refused] at read
  exact Parsed.noConfusion read

end PhpDriver
