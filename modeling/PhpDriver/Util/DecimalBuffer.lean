import PhpDriver.Data.CBuffer
import PhpDriver.Util.DecimalGrammar
import PhpDriver.Util.DecimalRoundTrip

namespace PhpDriver

open Data CBuffer

/-! `php_driver_format_decimal` of `util/math.c` with its buffer: the bytes behind `*out`
and the `int` length. `none` stands for undefined behaviour and the failed assertion. -/

def emalloc (contents : Nat → UInt8) (size : Nat) : List UInt8 :=
  (List.range size).map contents

theorem length_emalloc (contents : Nat → UInt8) (size : Nat) :
    (emalloc contents size).length = size := by
  rw [emalloc, List.length_map, List.length_range]

def strlen (buffer : List UInt8) : Option Nat :=
  if 0 ∈ buffer then some (cString buffer).length else none

variable (gmp : Gmp) (contents : Nat → UInt8)

/-- `mpz_get_str` into a buffer. -/
def getStr (buffer : List UInt8) (number : Int) : Option (List UInt8) :=
  store buffer 0 (gmp.mpzGetStr number ++ [0])

def formatIntegerBuffer (number : Int) : Option (List UInt8 × Int) := do
  let out ← getStr gmp (emalloc contents (gmp.mpzSizeinbase number 10 + 2)) number
  let len ← strlen out
  some (out, wrapInt len)

def formatFractionBuffer (tmp : List UInt8) (len negative : Nat) (point : Int) :
    Option (List UInt8 × Int) := do
  let tmp ← memmove tmp (negative + 2 + (-point).toNat) negative len
  let front := (if negative = 1 then ['-'.toUInt8] else []) ++
    '0'.toUInt8 :: '.'.toUInt8 :: List.replicate (-point).toNat '0'.toUInt8
  -- the bytes before `i`
  let tmp ← store tmp 0 front
  let total := front.length + len
  let tmp ← store tmp total [0]
  some (tmp, wrapInt total)

def formatPlainBuffer (tmp : List UInt8) (len negative : Nat) (point : Int) :
    Option (List UInt8 × Int) := do
  let total := len + negative + 1
  let point := point + negative
  if intMax < point then none
  else if (total : Int) < point then none
  else
    let tmp ← memmove tmp (point.toNat + 1) point.toNat (total - point.toNat)
    let tmp ← store tmp point.toNat ['.'.toUInt8]
    let tmp ← store tmp total [0]
    some (tmp, wrapInt total)

def formatScientificBuffer (tmp : List UInt8) (len negative : Nat) (point : Int) :
    Option (List UInt8 × Int) := do
  let exponent := point - 1
  if intMax < exponent.natAbs + 2 then none
  else
    let exponentSize := Nat.clog 10 (exponent.natAbs + 2) + 1
    let written := sprintfExponent exponent ++ [0]
    if len = 1 then
      let tmp ← store tmp (1 + negative) written
      some (tmp, wrapInt (1 + negative + 1 + exponentSize : Nat))
    else
      let point := negative + 1
      let tmp ← memmove tmp (point + 1) point (len - 1)
      let tmp ← store tmp point ['.'.toUInt8]
      let tmp ← store tmp (point + len) written
      some (tmp, wrapInt (point + len + 1 + exponentSize : Nat))

/-- No sum of sizes overflows: a number of GMP has less than `2 ^ 31` limbs. -/
def formatDecimalBuffer (number : Int) (scale : BitVec 64) : Option (List UInt8 × Int) :=
  if scale = 0 then formatIntegerBuffer gmp contents number
  else do
    let negative := if number.sign < 0 then 1 else 0
    let tmp := emalloc contents
      (gmp.mpzSizeinbase number 10 + negative + 1 + scale.toNat + 2)
    let tmp ← getStr gmp tmp number
    let len := (← strlen tmp) - negative
    let point := wrapInt (len - scale.toInt)
    if scale.toInt < 0 then none
    else if point = intMin then none
    else if -6 ≤ point - 1 then
      if point ≤ 0 then formatFractionBuffer tmp len negative point
      else formatPlainBuffer tmp len negative point
    else formatScientificBuffer tmp len negative point

/-! The text of the model without a buffer is what the buffer begins with. -/

/-- The result is such a text with its length as an `int`; the terminator stands behind it,
or is its last byte. -/
def Prints (result : Option (List UInt8 × Int)) (text : List UInt8) : Prop :=
  ∃ rest, result = some (text ++ rest, wrapInt text.length) ∧
    ((0 ∉ text ∧ ∃ more, rest = 0 :: more) ∨ ∃ front, text = front ++ [0] ∧ 0 ∉ front)

theorem zero_notMem_digits {digits : List UInt8} (all : DecimalText.AllDigits digits) :
    0 ∉ digits :=
  fun member => absurd (all 0 member) (by decide)

theorem zero_notMem_sign (negative : Bool) : 0 ∉ DecimalText.sign negative := by
  cases negative <;> decide

section

variable {gmp : Gmp} {contents : Nat → UInt8}

theorem sign_eq (negative : Bool) :
    (if (DecimalText.sign negative).length = 1 then ['-'.toUInt8] else []) =
      DecimalText.sign negative := by
  cases negative <;> rfl

theorem formatFractionBuffer_prints (negative : Bool) {digits : List UInt8}
    (all : DecimalText.AllDigits digits) (rest : List UInt8) {point : Int}
    (room : 2 + (-point).toNat ≤ rest.length) :
    Prints (formatFractionBuffer (DecimalText.sign negative ++ (digits ++ 0 :: rest)) digits.length
        (DecimalText.sign negative).length point)
      (formatFraction (DecimalText.sign negative ++ digits)
        (DecimalText.sign negative).length point) := by
  have stored := @store_of_gap _ (DecimalText.sign negative) (digits ++ 0 :: rest) digits
    (2 + (-point).toNat) (by simp; omega)
  rw [← Nat.add_assoc] at stored
  have gap : ((digits ++ 0 :: rest).take (2 + (-point).toNat)).length = 2 + (-point).toNat := by
    rw [List.length_take]
    simp
    omega
  generalize (digits ++ 0 :: rest).take (2 + (-point).toNat) = skipped at stored gap
  obtain ⟨last, more, moved⟩ : ∃ last more,
      (digits ++ 0 :: rest).drop (2 + (-point).toNat + digits.length) = last :: more := by
    apply List.exists_cons_of_length_pos
    simp
    omega
  rw [moved] at stored
  have frontLength : (DecimalText.sign negative ++ skipped).length =
      (DecimalText.sign negative ++ '0'.toUInt8 :: '.'.toUInt8 ::
        List.replicate (-point).toNat '0'.toUInt8).length := by
    simp [gap]
    omega
  have text : DecimalText.sign negative ++ (['0'.toUInt8] ++ '.'.toUInt8 ::
      (List.replicate (-point).toNat '0'.toUInt8 ++ digits)) =
        (DecimalText.sign negative ++ '0'.toUInt8 :: '.'.toUInt8 ::
          List.replicate (-point).toNat '0'.toUInt8) ++ digits := by
    simp
  have noZero : 0 ∉ (DecimalText.sign negative ++ '0'.toUInt8 :: '.'.toUInt8 ::
      List.replicate (-point).toNat '0'.toUInt8) ++ digits := by
    simp only [List.mem_append, List.mem_cons, List.mem_replicate, not_or, not_and]
    exact ⟨⟨zero_notMem_sign negative, by decide, by decide, fun _ => by decide⟩,
      zero_notMem_digits all⟩
  rw [formatFraction_eq, text]
  refine ⟨0 :: more, ?_, Or.inl ⟨noZero, more, rfl⟩⟩
  simp only [formatFractionBuffer, Option.bind_eq_bind, sign_eq]
  generalize DecimalText.sign negative ++ '0'.toUInt8 :: '.'.toUInt8 ::
    List.replicate (-point).toNat '0'.toUInt8 = front at frontLength
  have overwritten := @store_append _ [] (DecimalText.sign negative ++ skipped)
    (digits ++ last :: more) _ frontLength
  have terminated := @store_append _ (front ++ digits) [last] more [0] rfl
  rw [List.length_append, List.append_assoc] at terminated
  rw [List.nil_append, List.append_assoc] at overwritten
  rw [memmove_append rfl stored, Option.bind_some]
  rw [show store _ 0 front = _ from overwritten, Option.bind_some, List.nil_append]
  rw [show store (front ++ (digits ++ last :: more)) _ _ = _ from terminated, Option.bind_some,
    List.length_append]
  rfl

theorem formatPlainBuffer_prints (negative : Bool) {whole digits : List UInt8}
    (wholeDigits : DecimalText.AllDigits whole) (allDigits : DecimalText.AllDigits digits)
    {rest : List UInt8} (room : 0 < rest.length)
    (fits : (whole.length + (DecimalText.sign negative).length : Int) ≤ intMax) :
    Prints (formatPlainBuffer (DecimalText.sign negative ++ ((whole ++ digits) ++ 0 :: rest))
        (whole ++ digits).length (DecimalText.sign negative).length whole.length)
      (DecimalText.sign negative ++ (whole ++ '.'.toUInt8 :: digits)) := by
  obtain ⟨last, more, rfl⟩ := List.exists_cons_of_length_pos room
  have index : ((whole.length : Int) + (DecimalText.sign negative).length).toNat =
      (DecimalText.sign negative ++ whole).length := by
    rw [List.length_append]
    omega
  have total : (whole ++ digits).length + (DecimalText.sign negative).length + 1 =
      (DecimalText.sign negative ++ whole ++ '.'.toUInt8 :: digits).length := by
    simp
    omega
  have count : (DecimalText.sign negative ++ whole ++ '.'.toUInt8 :: digits).length -
      (DecimalText.sign negative ++ whole).length = (digits ++ [0]).length := by
    simp
    omega
  have shape : DecimalText.sign negative ++ ((whole ++ digits) ++ 0 :: last :: more) =
      (DecimalText.sign negative ++ whole) ++ ((digits ++ [0]) ++ last :: more) := by
    simp
  have inserted := @memmove_store _ (DecimalText.sign negative ++ whole) (digits ++ [0]) more
    '.'.toUInt8 last
  have terminated := @store_append _ (DecimalText.sign negative ++ whole ++ '.'.toUInt8 :: digits)
    [0] more [0] rfl
  have noZero : 0 ∉ DecimalText.sign negative ++ (whole ++ '.'.toUInt8 :: digits) := by
    simp only [List.mem_append, List.mem_cons, not_or]
    exact ⟨zero_notMem_sign negative, zero_notMem_digits wholeDigits, by decide,
      zero_notMem_digits allDigits⟩
  refine ⟨0 :: more, ?_, Or.inl ⟨noZero, more, rfl⟩⟩
  simp only [formatPlainBuffer, Option.bind_eq_bind, index, total, count, shape]
  rw [if_neg (by omega), if_neg (by rw [← total]; simp; omega), ← Option.bind_assoc, inserted,
    Option.bind_some]
  have again : (DecimalText.sign negative ++ whole) ++ '.'.toUInt8 :: ((digits ++ [0]) ++ more) =
      (DecimalText.sign negative ++ whole ++ '.'.toUInt8 :: digits) ++ ([0] ++ more) := by
    simp
  rw [again, terminated, Option.bind_some,
    List.append_assoc (DecimalText.sign negative) whole ('.'.toUInt8 :: digits)]
  rfl

/-- A dot behind the terminator is overwritten by the new terminator. -/
theorem formatPlainBuffer_behind (negative : Bool) {digits : List UInt8}
    (all : DecimalText.AllDigits digits) {rest : List UInt8} (room : 0 < rest.length)
    (fits : ((digits.length + 1 : Nat) + (DecimalText.sign negative).length : Int) ≤ intMax) :
    Prints (formatPlainBuffer (DecimalText.sign negative ++ (digits ++ 0 :: rest))
        digits.length (DecimalText.sign negative).length (digits.length + 1 : Nat))
      (DecimalText.sign negative ++ (digits ++ [0])) := by
  obtain ⟨last, more, rfl⟩ := List.exists_cons_of_length_pos room
  have index : (((digits.length + 1 : Nat) : Int) + (DecimalText.sign negative).length).toNat =
      (DecimalText.sign negative ++ (digits ++ [0])).length := by
    simp
    omega
  have total : digits.length + (DecimalText.sign negative).length + 1 =
      (DecimalText.sign negative ++ (digits ++ [0])).length := by
    simp
    omega
  have shape : DecimalText.sign negative ++ (digits ++ 0 :: last :: more) =
      (DecimalText.sign negative ++ (digits ++ [0])) ++ ([] ++ last :: more) := by
    simp
  have inserted := @memmove_store _ (DecimalText.sign negative ++ (digits ++ [0])) [] more
    '.'.toUInt8 last
  have terminated := @store_append _ (DecimalText.sign negative ++ (digits ++ [0]))
    ['.'.toUInt8] more [0] rfl
  have noZero : 0 ∉ DecimalText.sign negative ++ digits := by
    rw [List.mem_append, not_or]
    exact ⟨zero_notMem_sign negative, zero_notMem_digits all⟩
  refine ⟨0 :: more, ?_, Or.inr ⟨_, (List.append_assoc _ _ _).symm, noZero⟩⟩
  simp only [formatPlainBuffer, Option.bind_eq_bind, index, total, shape, Nat.sub_self]
  rw [if_neg (by omega), if_neg (by rw [← total]; simp; omega), ← Option.bind_assoc]
  rw [show (memmove _ _ _ 0).bind _ = _ from inserted, Option.bind_some, List.nil_append]
  rw [show store (_ ++ '.'.toUInt8 :: more) _ [0] = _ from terminated, Option.bind_some]
  rfl

def mantissa : List UInt8 → List UInt8
  | [] => []
  | [digit] => [digit]
  | first :: digits => first :: '.'.toUInt8 :: digits

def exponentPad (exponent : Int) : List UInt8 :=
  List.replicate (Nat.clog 10 (exponent.natAbs + 2) - (DecimalText.ofNat exponent.natAbs).length) 0

theorem length_sprintfExponent (exponent : Int) : (sprintfExponent exponent).length =
    2 + (DecimalText.ofNat exponent.natAbs).length := by
  simp [sprintfExponent]
  omega

theorem exponentPad_cases (exponent : Int) : exponentPad exponent = [] ∧
      Nat.clog 10 (exponent.natAbs + 2) = (DecimalText.ofNat exponent.natAbs).length ∨
    exponentPad exponent = [0] ∧
      Nat.clog 10 (exponent.natAbs + 2) = (DecimalText.ofNat exponent.natAbs).length + 1 := by
  rcases clog_exponent exponent.natAbs with same | more
  · exact Or.inl ⟨by rw [exponentPad, same, Nat.sub_self]; rfl, same⟩
  · exact Or.inr ⟨by rw [exponentPad, more, Nat.add_sub_cancel_left]; rfl, more⟩

theorem zero_notMem_sprintfExponent (exponent : Int) : 0 ∉ sprintfExponent exponent := by
  have digits := zero_notMem_digits (DecimalText.allDigits_ofNat exponent.natAbs)
  simp only [sprintfExponent, List.mem_cons, not_or]
  refine ⟨by decide, ?_, digits⟩
  split <;> decide

/-- What `sprintf` has written, with the length that the caller computes. -/
theorem prints_of_written {front : List UInt8} (noZero : 0 ∉ front) (rest : List UInt8)
    (exponent : Int) :
    Prints (some (front ++ (sprintfExponent exponent ++ 0 :: rest),
        wrapInt (front.length + 1 + (Nat.clog 10 (exponent.natAbs + 2) + 1) : Nat)))
      (front ++ (sprintfExponent exponent ++ exponentPad exponent)) := by
  have written := length_sprintfExponent exponent
  rcases exponentPad_cases exponent with ⟨pad, size⟩ | ⟨pad, size⟩
  · refine ⟨0 :: rest, ?_, Or.inl ⟨?_, rest, rfl⟩⟩
    rotate_left
    · rw [pad, List.append_nil, List.mem_append, not_or]
      exact ⟨noZero, zero_notMem_sprintfExponent exponent⟩
    have total : front.length + 1 + (Nat.clog 10 (exponent.natAbs + 2) + 1) =
        (front ++ (sprintfExponent exponent ++ [])).length := by
      simp [written]
      omega
    rw [pad, total]
    simp
  · refine ⟨rest, ?_, Or.inr ⟨front ++ sprintfExponent exponent, by rw [pad]; simp, ?_⟩⟩
    rotate_left
    · rw [List.mem_append, not_or]
      exact ⟨noZero, zero_notMem_sprintfExponent exponent⟩
    have total : front.length + 1 + (Nat.clog 10 (exponent.natAbs + 2) + 1) =
        (front ++ (sprintfExponent exponent ++ [0])).length := by
      simp [written]
      omega
    rw [pad, total]
    simp

theorem store_written {front rest : List UInt8} {exponent : Int}
    (room : (DecimalText.ofNat exponent.natAbs).length + 3 ≤ rest.length) :
    ∃ more, store (front ++ rest) front.length (sprintfExponent exponent ++ [0]) =
      some (front ++ (sprintfExponent exponent ++ 0 :: more)) := by
  have stored := @store_of_gap _ front rest (sprintfExponent exponent ++ [0]) 0 (by
    have written := length_sprintfExponent exponent
    simp [written]
    omega)
  rw [Nat.add_zero, List.take_zero, List.nil_append, List.append_assoc] at stored
  exact ⟨_, stored⟩

theorem formatScientificBuffer_prints (negative : Bool) {digits : List UInt8}
    (nonempty : digits ≠ []) (all : DecimalText.AllDigits digits) (rest : List UInt8) {point : Int}
    (fits : (point - 1).natAbs + 2 ≤ intMax)
    (room : (DecimalText.ofNat (point - 1).natAbs).length + 3 ≤ rest.length) :
    Prints (formatScientificBuffer (DecimalText.sign negative ++ (digits ++ 0 :: rest))
        digits.length (DecimalText.sign negative).length point)
      (DecimalText.sign negative ++ (mantissa digits ++
        (sprintfExponent (point - 1) ++ exponentPad (point - 1)))) := by
  have noDigit : 0 ∉ digits := zero_notMem_digits all
  have noSign := zero_notMem_sign negative
  match digits, nonempty with
  | [digit], _ =>
      have noZero : 0 ∉ DecimalText.sign negative ++ [digit] := by
        rw [List.mem_append, not_or]
        exact ⟨noSign, noDigit⟩
      obtain ⟨more, stored⟩ := @store_written (DecimalText.sign negative ++ [digit]) (0 :: rest)
        (point - 1) (by simp; omega)
      have prints := prints_of_written noZero more (point - 1)
      have length : (DecimalText.sign negative ++ [digit]).length =
          1 + (DecimalText.sign negative).length := by
        simp
        omega
      rw [List.append_assoc, length] at stored
      rw [length] at prints
      simp only [formatScientificBuffer, Option.bind_eq_bind, List.length_singleton, if_true]
      rw [if_neg (by omega), stored, Option.bind_some]
      rw [← List.append_assoc (DecimalText.sign negative) (mantissa [digit])]
      exact prints
  | first :: second :: digits, _ =>
      have length : (DecimalText.sign negative ++ [first]).length =
          (DecimalText.sign negative).length + 1 := by simp
      have inserted := @memmove_store _ (DecimalText.sign negative ++ [first]) (second :: digits)
        rest '.'.toUInt8 0
      have shape : DecimalText.sign negative ++ ((first :: second :: digits) ++ 0 :: rest) =
          (DecimalText.sign negative ++ [first]) ++ ((second :: digits) ++ 0 :: rest) := by
        simp
      have again : (DecimalText.sign negative ++ [first]) ++ '.'.toUInt8 ::
          ((second :: digits) ++ rest) = (DecimalText.sign negative ++
            (first :: '.'.toUInt8 :: second :: digits)) ++ rest := by
        simp
      obtain ⟨more, stored⟩ := @store_written (DecimalText.sign negative ++
        (first :: '.'.toUInt8 :: second :: digits)) rest (point - 1) room
      have noZero : 0 ∉ DecimalText.sign negative ++
          (first :: '.'.toUInt8 :: second :: digits) := by
        simp only [List.mem_cons, not_or, List.mem_append] at noDigit ⊢
        exact ⟨noSign, noDigit.1, by decide, noDigit.2⟩
      have prints := prints_of_written noZero more (point - 1)
      have front : (DecimalText.sign negative ++ (first :: '.'.toUInt8 :: second :: digits)).length =
          (DecimalText.sign negative).length + 1 + (first :: second :: digits).length := by
        simp
        omega
      rw [front] at stored prints
      have many : (first :: second :: digits).length ≠ 1 := by simp
      have count : (first :: second :: digits).length - 1 = (second :: digits).length := rfl
      rw [length] at inserted
      simp only [formatScientificBuffer, Option.bind_eq_bind]
      rw [if_neg (by omega), if_neg many, shape, count, ← Option.bind_assoc, inserted,
        Option.bind_some, again, stored, Option.bind_some]
      rw [← List.append_assoc (DecimalText.sign negative) (mantissa (first :: second :: digits))]
      exact prints

theorem formatScientific_eq (negative : Bool) {digits : List UInt8} (nonempty : digits ≠ [])
    {point : Int} (fits : (point - 1).natAbs + 2 ≤ intMax) :
    formatScientific (DecimalText.sign negative ++ digits) (DecimalText.sign negative).length point =
      .ok (DecimalText.sign negative ++ (mantissa digits ++
        (sprintfExponent (point - 1) ++ exponentPad (point - 1)))) := by
  have written := length_sprintfExponent (point - 1)
  -- the text that is written, cut at the length that is computed
  have cut (total : Nat) (length : total = (DecimalText.sign negative ++ mantissa digits).length +
      1 + (Nat.clog 10 ((point - 1).natAbs + 2) + 1)) :
      ((DecimalText.sign negative ++ mantissa digits) ++ sprintfExponent (point - 1) ++ [0]).take
          total = DecimalText.sign negative ++ (mantissa digits ++
            (sprintfExponent (point - 1) ++ exponentPad (point - 1))) := by
    rcases exponentPad_cases (point - 1) with ⟨pad, clog⟩ | ⟨pad, clog⟩
    · rw [List.take_left' (by rw [length, List.length_append, written]; omega), pad]
      simp
    · rw [List.take_of_length_le
        (by rw [length, List.length_append, List.length_append, written]; simp; omega), pad]
      simp
  have taken := @length_signed_sub negative digits
  simp only [formatScientific]
  rw [if_neg (by omega), taken]
  cases digits with
  | nil => exact absurd rfl nonempty
  | cons first rest =>
      cases rest with
      | nil =>
          rw [if_pos (show [first].length = 1 from rfl)]
          refine congrArg _ (cut _ ?_)
          simp [mantissa]
          omega
      | cons second digits =>
          have kept : (DecimalText.sign negative ++ first :: second :: digits).take
              ((DecimalText.sign negative).length + 1) = DecimalText.sign negative ++ [first] := by
            rw [List.take_length_add_append]
            rfl
          have moved : (DecimalText.sign negative ++ first :: second :: digits).drop
              ((DecimalText.sign negative).length + 1) = second :: digits := by
            rw [List.drop_length_add_append]
            rfl
          have shape : DecimalText.sign negative ++ [first] ++ '.'.toUInt8 :: second :: digits =
              DecimalText.sign negative ++ mantissa (first :: second :: digits) := by
            simp [mantissa]
          rw [if_neg (by simp), kept, moved, shape]
          refine congrArg _ (cut _ ?_)
          simp [mantissa]
          omega

def SizesDecimal (gmp : Gmp) : Prop :=
  ∀ n : Int, (DecimalText.ofNat n.natAbs).length ≤ gmp.mpzSizeinbase n 10

theorem getStr_emalloc (number : Int) {size : Nat}
    (room : signLength number + numDigits number + 1 ≤ size) :
    ∃ rest, rest.length = size - (signLength number + numDigits number + 1) ∧
      getStr gmp (emalloc contents size) number =
        some (DecimalText.sign (number < 0) ++ (DecimalText.ofNat number.natAbs ++ 0 :: rest)) := by
  have printed : gmp.mpzGetStr number ++ [0] =
      DecimalText.sign (number < 0) ++ (DecimalText.ofNat number.natAbs ++ [0]) := by
    rw [gmp.getStr_eq, DecimalText.ofInt, List.append_assoc]
  have count : (gmp.mpzGetStr number ++ [0]).length = signLength number + numDigits number + 1 := by
    rw [printed]
    simp [signLength, numDigits]
    omega
  have stored := @store_of_gap _ [] (emalloc contents size) (gmp.mpzGetStr number ++ [0]) 0 (by
    rw [length_emalloc, count]
    omega)
  rw [Nat.zero_add, count, printed, List.nil_append, List.nil_append, List.take_zero,
    List.nil_append, List.append_assoc, List.append_assoc] at stored
  refine ⟨_, ?_, (congrArg (store _ 0) printed).trans stored⟩
  change ((emalloc contents size).drop _).length = _
  rw [List.length_drop, length_emalloc]

theorem strlen_terminated {text : List UInt8} (noZero : 0 ∉ text) (rest : List UInt8) :
    strlen (text ++ 0 :: rest) = some text.length := by
  have terminated : cString (text ++ 0 :: rest) = text := by
    rw [cString_append noZero]
    simp [cString]
  rw [strlen, if_pos (by simp), terminated]

/-! Without room for the terminator the last store is undefined. -/

theorem formatFractionBuffer_none {tmp : List UInt8} {len : Nat} (negative : Bool) {point : Int}
    (full : tmp.length ≤ (DecimalText.sign negative).length + 2 + (-point).toNat + len) :
    formatFractionBuffer tmp len (DecimalText.sign negative).length point = none := by
  simp only [formatFractionBuffer, Option.bind_eq_bind, sign_eq]
  cases moved : memmove tmp ((DecimalText.sign negative).length + 2 + (-point).toNat)
      (DecimalText.sign negative).length len with
  | none => rfl
  | some first =>
      rw [Option.bind_some]
      cases stored : store first 0 (DecimalText.sign negative ++ '0'.toUInt8 :: '.'.toUInt8 ::
          List.replicate (-point).toNat '0'.toUInt8) with
      | none => rfl
      | some second =>
          have length := (length_of_store stored).trans (length_of_memmove moved)
          rw [Option.bind_some, store_eq_none (by simp; omega), Option.bind_none]

theorem formatScientificBuffer_none {tmp : List UInt8} {len : Nat} (negative : Bool) {point : Int}
    (many : len ≠ 1) (full : tmp.length < (DecimalText.sign negative).length + 1 + len + 3 +
      (DecimalText.ofNat (point - 1).natAbs).length) :
    formatScientificBuffer tmp len (DecimalText.sign negative).length point = none := by
  have written := length_sprintfExponent (point - 1)
  simp only [formatScientificBuffer, Option.bind_eq_bind, if_neg many]
  split
  · rfl
  · cases moved : memmove tmp ((DecimalText.sign negative).length + 1 + 1)
        ((DecimalText.sign negative).length + 1) (len - 1) with
    | none => rfl
    | some first =>
        rw [Option.bind_some]
        cases stored : store first ((DecimalText.sign negative).length + 1) ['.'.toUInt8] with
        | none => rfl
        | some second =>
            have length := (length_of_store stored).trans (length_of_memmove moved)
            rw [Option.bind_some, store_eq_none
              (by rw [List.length_append, written, List.length_singleton]; omega), Option.bind_none]

/-- The function with the buffer does what the one without does; where the text is longer
than an `int`, the buffer may be too small. -/
def Refines (result : Option (List UInt8 × Int)) : Except FormatFault (List UInt8) → Prop
  | .ok text => Prints result text ∨ (result = none ∧ intMax < text.length)
  | .error _ => result = none

theorem formatIntegerBuffer_prints (sizes : SizesDecimal gmp) (number : Int) :
    Prints (formatIntegerBuffer gmp contents number)
      (DecimalText.sign (number < 0) ++ DecimalText.ofNat number.natAbs) := by
  have size := sizes number
  have sign := signLength_le number
  obtain ⟨rest, _, printed⟩ := @getStr_emalloc gmp contents number
    (gmp.mpzSizeinbase number 10 + 2) (by simp only [numDigits]; omega)
  have noZero : 0 ∉ DecimalText.sign (number < 0) ++ DecimalText.ofNat number.natAbs := by
    rw [List.mem_append, not_or]
    exact ⟨zero_notMem_sign _, zero_notMem_digits (DecimalText.allDigits_ofNat _)⟩
  refine ⟨0 :: rest, ?_, Or.inl ⟨noZero, rest, rfl⟩⟩
  have length := strlen_terminated noZero rest
  rw [List.append_assoc] at length ⊢
  simp only [formatIntegerBuffer, printed, Option.bind_eq_bind, Option.bind_some, length]

theorem formatDecimalBuffer_zero (sizes : SizesDecimal gmp) (number : Int) :
    Prints (formatDecimalBuffer gmp contents number 0)
      (DecimalText.sign (number < 0) ++ DecimalText.ofNat number.natAbs) := by
  simp only [formatDecimalBuffer, if_true]
  exact formatIntegerBuffer_prints sizes number

theorem formatDecimalBuffer_of_pos (sizes : SizesDecimal gmp) (number : Int) {scale : BitVec 64}
    (positive : 0 < scale.toInt) : ∃ rest, scale.toInt + 2 ≤ rest.length ∧
      formatDecimalBuffer gmp contents number scale =
        (let tmp := DecimalText.sign (number < 0) ++ (DecimalText.ofNat number.natAbs ++ 0 :: rest)
        let point := wrapInt (numDigits number - scale.toInt)
        if point = intMin then none
        else if -6 ≤ point - 1 then
          if point ≤ 0 then formatFractionBuffer tmp (numDigits number) (signLength number) point
          else formatPlainBuffer tmp (numDigits number) (signLength number) point
        else formatScientificBuffer tmp (numDigits number) (signLength number) point) := by
  have size := sizes number
  have scaleNat := toNat_of_nonneg positive.le
  have nonzero : scale ≠ 0 := by
    rintro rfl
    exact absurd positive (by decide)
  have negative : (if number.sign < 0 then 1 else 0) = signLength number := by
    simp only [Int.sign_neg_iff]
    by_cases below : number < 0 <;> simp [signLength, DecimalText.sign, below]
  obtain ⟨rest, length, printed⟩ := @getStr_emalloc gmp contents number
    (gmp.mpzSizeinbase number 10 + signLength number + 1 + scale.toNat + 2)
    (by simp only [numDigits]; omega)
  have noZero : 0 ∉ DecimalText.sign (number < 0) ++ DecimalText.ofNat number.natAbs := by
    rw [List.mem_append, not_or]
    exact ⟨zero_notMem_sign _, zero_notMem_digits (DecimalText.allDigits_ofNat _)⟩
  have terminated := strlen_terminated noZero rest
  have count : (DecimalText.sign (number < 0) ++ DecimalText.ofNat number.natAbs).length -
      signLength number = numDigits number := by
    simp [signLength, numDigits]
  rw [List.append_assoc] at terminated
  refine ⟨rest, ?_, ?_⟩
  · rw [length]
    simp only [numDigits]
    omega
  · rw [formatDecimalBuffer, if_neg nonzero]
    simp only [negative, printed, Option.bind_eq_bind, Option.bind_some, terminated, count]
    rw [if_neg (by omega)]

theorem length_exponent_lt {exponent : Nat} (two : 2 ≤ exponent) :
    (DecimalText.ofNat exponent).length + 1 ≤ exponent := by
  have power : exponent - 1 < 2 ^ (exponent - 1) := Nat.lt_two_pow_self
  have larger : 2 ^ (exponent - 1) < 10 ^ (exponent - 1) :=
    Nat.pow_lt_pow_left (by decide) (by omega)
  have length := (DecimalText.length_ofNat_le_iff (n := exponent) (k := exponent - 1)
    (by omega)).mpr (by omega)
  omega

section

variable {number : Int} {scale : BitVec 64} {point : Int} {rest : List UInt8}

theorem fraction_refines (positive : 0 < scale.toInt)
    (position : wrapInt (numDigits number - scale.toInt) = point)
    (room : scale.toInt + 2 ≤ rest.length) (low : -5 ≤ point) (high : point ≤ 0) :
    Refines (formatFractionBuffer
        (DecimalText.sign (number < 0) ++ (DecimalText.ofNat number.natAbs ++ 0 :: rest))
        (numDigits number) (signLength number) point)
      (.ok (formatFraction (DecimalText.sign (number < 0) ++ DecimalText.ofNat number.natAbs)
        (signLength number) point)) := by
  by_cases enough : 2 + (-point).toNat ≤ rest.length
  · exact Or.inl (formatFractionBuffer_prints _ (DecimalText.allDigits_ofNat _) rest enough)
  · right
    have someDigits := DecimalText.length_ofNat_pos number.natAbs
    obtain ⟨wraps, same⟩ := wrapInt_eq_sub (numDigits number - scale.toInt)
    rw [position] at same
    constructor
    · apply formatFractionBuffer_none
      simp only [numDigits, List.length_append, List.length_cons]
      omega
    · rw [signLength, formatFraction_eq]
      simp only [numDigits, intMax, List.length_append, List.length_cons] at *
      omega

theorem plain_refines (room : 0 < rest.length) (low : 0 < point) :
    Refines (formatPlainBuffer
        (DecimalText.sign (number < 0) ++ (DecimalText.ofNat number.natAbs ++ 0 :: rest))
        (numDigits number) (signLength number) point)
      (formatPlain (DecimalText.sign (number < 0) ++ DecimalText.ofNat number.natAbs)
        (signLength number) point) := by
  have digits := DecimalText.allDigits_ofNat number.natAbs
  by_cases overflows : intMax < point + signLength number
  · have faulty := formatPlain_overflow (number < 0) (DecimalText.ofNat number.natAbs) overflows
    rw [signLength, faulty]
    simp only [formatPlainBuffer]
    exact if_pos overflows
  by_cases inside : point ≤ numDigits number
  · obtain ⟨index, rfl⟩ := Int.eq_ofNat_of_zero_le low.le
    have short : index ≤ (DecimalText.ofNat number.natAbs).length := by
      simp only [numDigits] at inside
      omega
    have taken : ((DecimalText.ofNat number.natAbs).take index).length = index := by
      rw [List.length_take]
      omega
    have shape := formatPlain_eq (number < 0) (DecimalText.ofNat number.natAbs) index short
      (by simp only [signLength] at overflows; omega)
    have prints := @formatPlainBuffer_prints (number < 0)
      ((DecimalText.ofNat number.natAbs).take index) ((DecimalText.ofNat number.natAbs).drop index)
      (fun char member => digits char (List.mem_of_mem_take member))
      (fun char member => digits char (List.mem_of_mem_drop member)) rest room
      (by rw [taken]; simp only [signLength] at overflows; omega)
    rw [taken, List.take_append_drop] at prints
    rw [signLength, shape]
    exact Or.inl prints
  by_cases behind : point = numDigits number + 1
  · have fits : (((DecimalText.ofNat number.natAbs).length + 1 : Nat) +
        (DecimalText.sign (number < 0)).length : Int) ≤ intMax := by
      simp only [numDigits, signLength] at behind overflows
      omega
    have shape := formatPlain_behind (number < 0) (DecimalText.ofNat number.natAbs) fits
    have prints := @formatPlainBuffer_behind (number < 0) _ digits rest room fits
    have cast : ((DecimalText.ofNat number.natAbs).length + 1 : Nat) = point := by
      simp only [numDigits] at behind
      omega
    rw [cast] at shape prints
    rw [signLength, shape]
    exact Or.inl prints
  · obtain ⟨fault, faulty⟩ := formatPlain_outside (number < 0) (DecimalText.ofNat number.natAbs)
      point (by simp only [numDigits] at inside behind; omega)
    rw [signLength] at overflows
    rw [signLength, faulty]
    simp only [formatPlainBuffer]
    rw [if_neg overflows]
    exact if_pos (by push_cast; omega)

theorem scientific_refines (positive : 0 < scale.toInt)
    (position : wrapInt (numDigits number - scale.toInt) = point)
    (room : scale.toInt + 2 ≤ rest.length) (high : point < -5) :
    Refines (formatScientificBuffer
        (DecimalText.sign (number < 0) ++ (DecimalText.ofNat number.natAbs ++ 0 :: rest))
        (numDigits number) (signLength number) point)
      (formatScientific (DecimalText.sign (number < 0) ++ DecimalText.ofNat number.natAbs)
        (signLength number) point) := by
  have nonempty := DecimalText.ofNat_ne_nil number.natAbs
  by_cases overflows : intMax < (point - 1).natAbs + 2
  · have faulty := formatScientific_overflow (number < 0) (DecimalText.ofNat number.natAbs)
      overflows
    rw [signLength, faulty]
    simp only [formatScientificBuffer]
    exact if_pos overflows
  have shape := @formatScientific_eq (number < 0) _ nonempty point (not_lt.mp overflows)
  rw [signLength, shape]
  by_cases enough : (DecimalText.ofNat (point - 1).natAbs).length + 3 ≤ rest.length
  · exact Or.inl (formatScientificBuffer_prints _ nonempty (DecimalText.allDigits_ofNat _) rest
      (by omega) enough)
  · right
    have someDigits : 0 < numDigits number := DecimalText.length_ofNat_pos number.natAbs
    have few := @length_exponent_lt (point - 1).natAbs (by omega)
    have ten : (DecimalText.ofNat (point - 1).natAbs).length ≤ 10 := by
      rw [DecimalText.length_ofNat_le_iff (by decide)]
      simp only [intMax] at overflows
      omega
    obtain ⟨wraps, same⟩ := wrapInt_eq_sub (numDigits number - scale.toInt)
    have bounds := wrapInt_bounds (numDigits number - scale.toInt)
    rw [position] at same bounds
    have long : intMax < numDigits number := by
      simp only [intMin, intMax] at *
      omega
    constructor
    · apply formatScientificBuffer_none
      · simp only [intMax] at long
        omega
      · simp only [numDigits, List.length_append, List.length_cons]
        omega
    · have digits : numDigits number ≤ (mantissa (DecimalText.ofNat number.natAbs)).length := by
        rw [numDigits]
        cases DecimalText.ofNat number.natAbs with
        | nil => exact Nat.zero_le _
        | cons first others =>
            cases others with
            | nil => exact Nat.le_refl _
            | cons second others => simp [mantissa]
      rw [List.length_append, List.length_append]
      omega

end

/-- The buffer is large enough for every text that is no longer than an `int`. -/
theorem formatDecimalBuffer_refines (sizes : SizesDecimal gmp) (number : Int) {scale : BitVec 64}
    (nonneg : 0 ≤ scale.toInt) :
    Refines (formatDecimalBuffer gmp contents number scale) (formatDecimal gmp number scale) := by
  rcases nonneg.eq_or_lt with zero | positive
  · obtain rfl : scale = 0 := BitVec.eq_of_toInt_eq zero.symm
    rw [formatDecimal_zero_scale]
    exact Or.inl (formatDecimalBuffer_zero sizes number)
  obtain ⟨rest, room, buffer⟩ := @formatDecimalBuffer_of_pos gmp contents sizes number scale positive
  rw [buffer, formatDecimal_of_pos gmp number positive]
  generalize position : wrapInt (numDigits number - scale.toInt) = point
  simp only
  split
  · rfl
  · split
    · split
      · exact fraction_refines positive position room (by omega) (by omega)
      · exact plain_refines (by omega) (by omega)
    · exact scientific_refines positive position room (by omega)

end

end PhpDriver
