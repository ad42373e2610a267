import PhpDriver.Util.DecimalBuffer

namespace PhpDriver

open Data CBuffer DecimalGrammar

/-! When the printed text is the number. -/

variable (gmp : Gmp) (contents : Nat → UInt8)

/-- The buffer holds a terminated text of the number, and its length is the one reported. -/
def PrintsExactly (number : Int) (scale : BitVec 64) : Prop :=
  ∃ buffer length, formatDecimalBuffer gmp contents number scale = some (buffer, length) ∧
    0 ∈ buffer ∧ length = (cString buffer).length ∧
    Denotes (cString buffer) (scaled 10 number scale.toInt)

/-- The position of the dot is an `int`; only for zero does the scale not count beyond it. -/
def layoutScale (number : Int) (scale : BitVec 64) : Int :=
  if number = 0 then 1 - wrapInt (1 - scale.toInt) else scale.toInt

def plainWidth (number scale : Int) : Int :=
  signLength number + max ((numDigits number : Int) + (if scale = 0 then 0 else 1)) (scale + 2)

def printedExponent (number scale : Int) : Nat :=
  (scale - numDigits number + 1).toNat

def scientificWidth (number scale : Int) : Nat :=
  signLength number + numDigits number + (if numDigits number = 1 then 0 else 1) + 2 +
    (DecimalText.ofNat (printedExponent number scale)).length

/-- The text is no longer than an `int`, and its exponent is not one of nines alone. -/
def PrintsWhole (number scale : Int) : Prop :=
  (0 ≤ scale ∧ scale ≤ numDigits number + 5 ∧ plainWidth number scale ≤ intMax) ∨
    (numDigits number + 6 ≤ scale ∧ printedExponent number scale + 2 ≤ intMax ∧
      (∀ k, printedExponent number scale + 1 ≠ 10 ^ k) ∧
      scientificWidth number scale ≤ intMax)

def ExactText (text : List UInt8) (number : Int) (scale : BitVec 64) : Prop :=
  0 ∉ text ∧ text.length ≤ intMax ∧ Denotes text (scaled 10 number scale.toInt)

section

variable {gmp : Gmp} {contents : Nat → UInt8} {number : Int} {scale : BitVec 64}

theorem cString_terminated {text : List UInt8} (noZero : 0 ∉ text) (rest : List UInt8) :
    cString (text ++ 0 :: rest) = text := by
  rw [cString_append noZero]
  simp [cString]

theorem printsExactly_iff_text (sizes : SizesDecimal gmp) (nonneg : 0 ≤ scale.toInt) :
    PrintsExactly gmp contents number scale ↔
      ∃ text, formatDecimal gmp number scale = .ok text ∧ ExactText text number scale := by
  have refined := @formatDecimalBuffer_refines gmp contents sizes number scale nonneg
  constructor
  · rintro ⟨buffer, length, written, _, same, denotes⟩
    cases printed : formatDecimal gmp number scale with
    | error fault =>
        rw [printed] at refined
        exact nomatch (show _ = none from refined).symm.trans written
    | ok text =>
        rw [printed] at refined
        rcases refined with ⟨rest, result, ends⟩ | ⟨none_, _⟩
        · rw [written] at result
          simp only [Option.some.injEq, Prod.mk.injEq] at result
          obtain ⟨rfl, reported⟩ := result
          rw [reported] at same
          rcases ends with ⟨noZero, more, rfl⟩ | ⟨front, rfl, noZero⟩
          · rw [cString_terminated noZero] at same denotes
            have bounds := wrapInt_bounds text.length
            exact ⟨text, rfl, noZero, by omega, denotes⟩
          · rw [List.append_assoc, List.singleton_append, cString_terminated noZero,
              List.length_append] at same
            obtain ⟨wraps, wrapped⟩ := wrapInt_eq_sub ((front.length + [(0 : UInt8)].length : Nat))
            simp only [List.length_singleton] at same wrapped
            omega
        · cases none_.symm.trans written
  · rintro ⟨text, printed, noZero, short, denotes⟩
    rw [printed] at refined
    rcases refined with ⟨rest, result, ends⟩ | ⟨_, long⟩
    · rcases ends with ⟨_, more, rfl⟩ | ⟨front, rfl, _⟩
      · refine ⟨_, _, result, by simp, ?_, ?_⟩
        · rw [cString_terminated noZero]
          exact wrapInt_of_range (by simp only [intMin]; omega) (by omega)
        · rwa [cString_terminated noZero]
      · exact absurd (List.mem_append_right front (List.mem_singleton_self 0)) noZero
    · omega

theorem exists_sign (negative : Bool) : ∃ sign : Numeral.Sign,
    sign.text = DecimalText.sign negative ∧ sign.negative = negative := by
  cases negative with
  | true => exact ⟨.minus, rfl, rfl⟩
  | false => exact ⟨.none, rfl, rfl⟩

theorem denotes_signed (negative : Bool) {text whole : List UInt8}
    {fraction : Option (List UInt8)} {exponent : Int}
    (form : DecimalForm text whole fraction exponent) (noOctal : ¬ OctalText text) :
    Denotes (DecimalText.sign negative ++ text) (scaled 10 (DecimalText.signed negative
      (DecimalText.toNat (whole ++ fraction.getD []))) (places fraction - exponent)) := by
  obtain ⟨sign, text, same⟩ := exists_sign negative
  rw [← text, ← same]
  exact Denotes.decimal sign form noOctal

theorem not_octalText {text : List UInt8} {char : UInt8} (member : char ∈ text)
    (large : 8 ≤ Numeral.digitValue char) (other : char ≠ '0'.toUInt8) : ¬ OctalText text := by
  rintro ⟨digits, rfl, bounded⟩
  rcases List.mem_cons.mp member with zero | member
  · exact other zero
  · exact absurd (bounded char member) (not_lt.mpr large)

theorem scaled_inj {first second : Int} :
    scaled (10 : ℚ) number first = scaled 10 number second ↔ number = 0 ∨ first = second := by
  simp only [scaled, mul_eq_mul_left_iff, Int.cast_eq_zero]
  rw [zpow_right_inj₀ (by norm_num) (by norm_num), neg_inj]
  tauto

/-- A text that denotes the digits with one scale denotes them with no other. -/
theorem denotes_iff {text : List UInt8} {places : Int} (denotes : Denotes text (scaled 10 number places)) :
    Denotes text (scaled 10 number scale.toInt) ↔ number = 0 ∨ places = scale.toInt := by
  rw [← scaled_inj]
  constructor
  · exact denotes.functional
  · intro same
    rwa [← same]

theorem denotes_integer (number : Int) :
    Denotes (DecimalText.sign (number < 0) ++ DecimalText.ofNat number.natAbs)
      (scaled 10 number 0) := by
  by_cases zero : number = 0
  · subst zero
    have denotes := @Denotes.octal .none [] (by simp)
    have zero : scaled (10 : ℚ) 0 0 = 0 := by simp [scaled]
    have value : DecimalText.signed false (Numeral.value 8 []) = 0 := rfl
    rw [Numeral.Sign.negative, value, Int.cast_zero] at denotes
    · rw [zero]
      exact denotes
    · intro other
      cases other
  · have form : DecimalForm (DecimalText.ofNat number.natAbs) (DecimalText.ofNat number.natAbs)
        none 0 := by
      refine ⟨⟨[], by simp [dotted], .absent⟩, DecimalText.allDigits_ofNat _, by simp [DecimalText.AllDigits],
        by simpa using DecimalText.ofNat_ne_nil _, ?_⟩
      simp [places, longMax]
    have noOctal : ¬ OctalText (DecimalText.ofNat number.natAbs) := by
      rintro ⟨digits, same, _⟩
      have first := head_ofNat_natAbs zero
      rw [same] at first
      exact first rfl
    have denotes := denotes_signed (number < 0) form noOctal
    simpa [places, DecimalText.signed_natAbs] using denotes

theorem denotes_dotted {whole fraction : List UInt8} (nonempty : whole ≠ [])
    (wholeDigits : DecimalText.AllDigits whole) (fractionDigits : DecimalText.AllDigits fraction)
    (same : DecimalText.toNat (whole ++ fraction) = number.natAbs)
    (short : fraction.length ≤ intMax) :
    Denotes (DecimalText.sign (number < 0) ++ (whole ++ '.'.toUInt8 :: fraction))
      (scaled 10 number fraction.length) := by
  have form : DecimalForm (whole ++ '.'.toUInt8 :: fraction) whole (some fraction) 0 := by
    refine ⟨⟨[], by simp [dotted], .absent⟩, wholeDigits, fractionDigits, by simp [nonempty], ?_⟩
    simp only [places, Option.getD_some, longMax, intMax] at *
    omega
  have noOctal : ¬ OctalText (whole ++ '.'.toUInt8 :: fraction) :=
    @not_octalText _ '.'.toUInt8 (by simp) (by decide) (by decide)
  have denotes := denotes_signed (number < 0) form noOctal
  rw [Option.getD_some, same, DecimalText.signed_natAbs] at denotes
  simpa [places] using denotes

theorem exponent_sprintf (exponent : Int) : Exponent (sprintfExponent exponent) exponent := by
  have digits := DecimalText.allDigits_ofNat exponent.natAbs
  have nonempty := DecimalText.ofNat_ne_nil exponent.natAbs
  by_cases negative : exponent < 0
  · have present := Exponent.present (Or.inr rfl) .minus nonempty digits
    rw [DecimalText.toNat_ofNat] at present
    have signed : DecimalText.signed true exponent.natAbs = exponent := by
      have same := DecimalText.signed_natAbs exponent
      rwa [decide_eq_true negative] at same
    rw [Numeral.Sign.negative, signed] at present
    rw [sprintfExponent, if_pos negative]
    exact present
  · have present := Exponent.present (Or.inr rfl) .plus nonempty digits
    rw [DecimalText.toNat_ofNat] at present
    have signed : DecimalText.signed false exponent.natAbs = exponent := by
      have same := DecimalText.signed_natAbs exponent
      rwa [decide_eq_false negative] at same
    rw [Numeral.Sign.negative, signed] at present
    · rw [sprintfExponent, if_neg negative]
      exact present
    · intro other
      cases other

theorem length_mantissa {digits : List UInt8} (nonempty : digits ≠ []) :
    (mantissa digits).length = digits.length + (if digits.length = 1 then 0 else 1) := by
  match digits, nonempty with
  | [digit], _ => rfl
  | first :: second :: digits, _ => simp [mantissa]

theorem exists_mantissa {digits : List UInt8} (nonempty : digits ≠ []) :
    ∃ first fraction, mantissa digits = [first] ++ dotted fraction ∧
      [first] ++ fraction.getD [] = digits ∧ places fraction + 1 = digits.length := by
  match digits, nonempty with
  | [digit], _ => exact ⟨digit, none, rfl, rfl, rfl⟩
  | first :: second :: digits, _ => exact ⟨first, some (second :: digits), rfl, rfl, rfl⟩

theorem denotes_scientific {exponent : Int} (short : numDigits number ≤ intMax)
    (range : exponent.natAbs ≤ intMax) :
    Denotes (DecimalText.sign (number < 0) ++ (mantissa (DecimalText.ofNat number.natAbs) ++
        sprintfExponent exponent)) (scaled 10 number (numDigits number - 1 - exponent)) := by
  have digits := DecimalText.allDigits_ofNat number.natAbs
  obtain ⟨first, fraction, shape, same, count⟩ :=
    exists_mantissa (DecimalText.ofNat_ne_nil number.natAbs)
  have parts : DecimalText.AllDigits ([first] ++ fraction.getD []) := by rwa [same]
  have form : DecimalForm (mantissa (DecimalText.ofNat number.natAbs) ++ sprintfExponent exponent)
      [first] fraction exponent := by
    refine ⟨⟨sprintfExponent exponent, by rw [shape, List.append_assoc], exponent_sprintf exponent⟩,
      fun char member => parts char (List.mem_append_left _ member),
      fun char member => parts char (List.mem_append_right _ member), by simp, ?_⟩
    simp only [numDigits, longMax, intMax] at *
    omega
  have noOctal : ¬ OctalText (mantissa (DecimalText.ofNat number.natAbs) ++
      sprintfExponent exponent) :=
    @not_octalText _ 'E'.toUInt8 (by simp [sprintfExponent]) (by decide) (by decide)
  have denotes := denotes_signed (number < 0) form noOctal
  have scale : (places fraction - exponent : Int) = numDigits number - 1 - exponent := by
    rw [numDigits, ← count]
    omega
  rwa [same, DecimalText.toNat_ofNat, DecimalText.signed_natAbs, scale] at denotes

theorem exponentPad_eq_nil_iff {exponent : Int} (some_ : exponent ≠ 0) :
    exponentPad exponent = [] ↔ ∀ k, exponent.natAbs + 1 ≠ 10 ^ k := by
  have below := DecimalText.lt_pow_length_ofNat exponent.natAbs
  have clog := @Nat.clog_le_iff_le_pow 10 (by decide) (exponent.natAbs + 2)
    (DecimalText.ofNat exponent.natAbs).length
  constructor
  · intro pad k nines
    have positive : 0 < k := by
      cases k with
      | zero =>
          rw [pow_zero] at nines
          omega
      | succ k => omega
    have few := (DecimalText.length_ofNat_le_iff (n := exponent.natAbs) positive).mpr (by omega)
    have power := Nat.pow_le_pow_right (n := 10) (by decide) few
    rcases exponentPad_cases exponent with ⟨_, size⟩ | ⟨other, _⟩
    · have fits := clog.mp size.le
      omega
    · cases pad.symm.trans other
  · intro others
    rcases exponentPad_cases exponent with ⟨pad, _⟩ | ⟨_, size⟩
    · exact pad
    · have large := mt clog.mpr (by omega)
      exact absurd (by omega) (others (DecimalText.ofNat exponent.natAbs).length)

theorem exactText_of_printed {text : List UInt8}
    (printed : formatDecimal gmp number scale = .ok text) :
    (∃ text, formatDecimal gmp number scale = .ok text ∧ ExactText text number scale) ↔
      ExactText text number scale := by
  constructor
  · rintro ⟨other, again, exact_⟩
    obtain rfl := Except.ok.inj (again.symm.trans printed)
    exact exact_
  · exact fun exact_ => ⟨text, printed, exact_⟩

theorem not_exact_of_fault {fault : FormatFault}
    (printed : formatDecimal gmp number scale = .error fault) :
    ¬ ∃ text, formatDecimal gmp number scale = .ok text ∧ ExactText text number scale := by
  rintro ⟨text, again, _⟩
  cases again.symm.trans printed

section

variable {point : Int}

theorem layoutScale_iff (position : point = wrapInt (numDigits number - scale.toInt)) :
    layoutScale number scale = numDigits number - point ↔
      number = 0 ∨ (numDigits number - point : Int) = scale.toInt := by
  rw [layoutScale]
  split
  · rename_i zero
    subst zero
    exact iff_of_true (by rw [position]; rfl) (Or.inl rfl)
  · rename_i nonzero
    constructor
    · exact fun same => Or.inr same.symm
    · exact fun same => (same.resolve_left nonzero).symm

theorem layoutScale_of_printsWhole (position : point = wrapInt (numDigits number - scale.toInt))
    (whole : PrintsWhole number (layoutScale number scale)) :
    layoutScale number scale = numDigits number - point := by
  rw [layoutScale_iff position]
  by_cases zero : number = 0
  · exact Or.inl zero
  right
  rw [layoutScale, if_neg zero] at whole
  have unwrapped : wrapInt (numDigits number - scale.toInt) = numDigits number - scale.toInt := by
    apply wrapInt_of_range
    all_goals
      simp only [PrintsWhole, plainWidth, printedExponent, intMin, intMax] at *
      omega
  omega

theorem exactText_integer (number : Int) :
    (∃ text, formatDecimal gmp number 0 = .ok text ∧ ExactText text number 0) ↔
      PrintsWhole number (layoutScale number 0) := by
  have placed : layoutScale number 0 = 0 := by
    rw [layoutScale]
    split
    · exact rfl
    · exact rfl
  have noZero : 0 ∉ DecimalText.sign (number < 0) ++ DecimalText.ofNat number.natAbs := by
    rw [List.mem_append, not_or]
    exact ⟨zero_notMem_sign _, zero_notMem_digits (DecimalText.allDigits_ofNat _)⟩
  have length : (DecimalText.sign (number < 0) ++ DecimalText.ofNat number.natAbs).length =
      signLength number + numDigits number := List.length_append
  have sign := signLength_le number
  rw [exactText_of_printed (formatDecimal_zero_scale gmp number), placed, ExactText, length]
  simp only [PrintsWhole, plainWidth, if_true, intMax]
  constructor
  · rintro ⟨_, short, _⟩
    exact Or.inl ⟨le_refl 0, by omega, by omega⟩
  · rintro (⟨_, _, short⟩ | ⟨far, _⟩)
    · exact ⟨noZero, by omega, denotes_integer number⟩
    · omega

theorem exact_dotted {whole fraction text : List UInt8}
    (position : point = wrapInt (numDigits number - scale.toInt)) (nonempty : whole ≠ [])
    (wholeDigits : DecimalText.AllDigits whole) (fractionDigits : DecimalText.AllDigits fraction)
    (same : DecimalText.toNat (whole ++ fraction) = number.natAbs)
    (count : (fraction.length : Int) = numDigits number - point)
    (shape : text = DecimalText.sign (number < 0) ++ (whole ++ '.'.toUInt8 :: fraction)) :
    ExactText text number scale ↔ text.length ≤ intMax ∧
      layoutScale number scale = numDigits number - point := by
  have noZero : 0 ∉ text := by
    rw [shape]
    simp only [List.mem_append, List.mem_cons, not_or]
    exact ⟨zero_notMem_sign _, zero_notMem_digits wholeDigits, by decide,
      zero_notMem_digits fractionDigits⟩
  have shown (short : text.length ≤ intMax) :
      Denotes text (scaled 10 number (numDigits number - point)) := by
    have few : fraction.length ≤ intMax := by
      rw [shape] at short
      simp at short
      omega
    have dotted := denotes_dotted nonempty wholeDigits fractionDigits same few
    rwa [← shape, count] at dotted
  rw [ExactText, layoutScale_iff position]
  constructor
  · rintro ⟨_, short, denotes⟩
    exact ⟨short, (denotes_iff (shown short)).mp denotes⟩
  · rintro ⟨short, placed⟩
    exact ⟨noZero, short, (denotes_iff (shown short)).mpr placed⟩

theorem exact_fraction_layout (positive : 0 < scale.toInt)
    (position : point = wrapInt (numDigits number - scale.toInt)) (low : -5 ≤ point)
    (high : point ≤ 0) :
    (∃ text, formatDecimal gmp number scale = .ok text ∧ ExactText text number scale) ↔
      PrintsWhole number (layoutScale number scale) := by
  have someDigits : 0 < numDigits number := DecimalText.length_ofNat_pos _
  have printed : formatDecimal gmp number scale = .ok (DecimalText.sign (number < 0) ++
      (['0'.toUInt8] ++ '.'.toUInt8 :: (List.replicate (-point).toNat '0'.toUInt8 ++
        DecimalText.ofNat number.natAbs))) := by
    rw [formatDecimal_of_pos gmp number positive]
    simp only [← position]
    rw [if_neg (by simp only [intMin]; omega), if_pos (by omega), if_pos high]
    exact congrArg _ (formatFraction_eq _ _ point)
  have zeros : DecimalText.AllDigits (List.replicate (-point).toNat '0'.toUInt8 ++
      DecimalText.ofNat number.natAbs) := by
    intro char member
    rcases List.mem_append.mp member with zero | digit
    · obtain rfl := (List.mem_replicate.mp zero).2
      decide
    · exact DecimalText.allDigits_ofNat _ char digit
  have same : DecimalText.toNat (['0'.toUInt8] ++ (List.replicate (-point).toNat '0'.toUInt8 ++
      DecimalText.ofNat number.natAbs)) = number.natAbs := by
    have front : ['0'.toUInt8] ++ (List.replicate (-point).toNat '0'.toUInt8 ++
        DecimalText.ofNat number.natAbs) =
        List.replicate ((-point).toNat + 1) (DecimalText.digitChar 0) ++
          DecimalText.ofNat number.natAbs := rfl
    rw [front, DecimalText.toNat_replicate_zero_append, DecimalText.toNat_ofNat]
  have count : ((List.replicate (-point).toNat '0'.toUInt8 ++
      DecimalText.ofNat number.natAbs).length : Int) = numDigits number - point := by
    simp [numDigits]
    omega
  have length : (DecimalText.sign (number < 0) ++ (['0'.toUInt8] ++ '.'.toUInt8 ::
      (List.replicate (-point).toNat '0'.toUInt8 ++ DecimalText.ofNat number.natAbs))).length =
        signLength number + 2 + (-point).toNat + numDigits number := by
    simp [signLength, numDigits]
    omega
  rw [exactText_of_printed printed,
    exact_dotted position (by simp) (by decide +kernel) zeros same count rfl, length]
  constructor
  · rintro ⟨short, placed⟩
    rw [placed]
    simp only [PrintsWhole, plainWidth, intMax] at *
    exact Or.inl ⟨by omega, by omega, by omega⟩
  · intro whole
    have placed := layoutScale_of_printsWhole position whole
    rw [placed] at whole
    simp only [PrintsWhole, plainWidth, intMax] at *
    exact ⟨by omega, placed⟩

theorem exact_plain_layout (positive : 0 < scale.toInt)
    (position : point = wrapInt (numDigits number - scale.toInt)) (low : 0 < point) :
    (∃ text, formatDecimal gmp number scale = .ok text ∧ ExactText text number scale) ↔
      PrintsWhole number (layoutScale number scale) := by
  have digits := DecimalText.allDigits_ofNat number.natAbs
  have bounds := wrapInt_bounds (numDigits number - scale.toInt)
  have sign := signLength_le number
  have printed : formatDecimal gmp number scale =
      formatPlain (DecimalText.sign (number < 0) ++ DecimalText.ofNat number.natAbs)
        (signLength number) point := by
    rw [formatDecimal_of_pos gmp number positive]
    simp only [← position]
    rw [if_neg (by simp only [intMin]; omega), if_pos (by omega), if_neg (by omega)]
  by_cases inside : point ≤ numDigits number
  · obtain ⟨index, rfl⟩ := Int.eq_ofNat_of_zero_le low.le
    have taken : ((DecimalText.ofNat number.natAbs).take index).length = index := by
      rw [List.length_take]
      simp only [numDigits] at inside
      omega
    have dropped : (((DecimalText.ofNat number.natAbs).drop index).length : Int) =
        numDigits number - index := by
      rw [List.length_drop]
      simp only [numDigits] at *
      omega
    have some_ : layoutScale number scale = numDigits number - index →
        0 < layoutScale number scale ∨ number = 0 := by
      intro placed
      rcases (layoutScale_iff position).mp placed with zero | same
      · exact Or.inr zero
      · exact Or.inl (by omega)
    by_cases overflows : intMax < (index : Int) + signLength number
    · have faulty := formatPlain_overflow (number < 0) (DecimalText.ofNat number.natAbs) overflows
      refine iff_of_false (not_exact_of_fault (printed.trans faulty)) ?_
      intro whole
      have placed := layoutScale_of_printsWhole position whole
      rw [placed] at whole
      simp only [PrintsWhole, plainWidth, intMax] at *
      omega
    have shape := formatPlain_eq (number < 0) (DecimalText.ofNat number.natAbs)
      index (by simp only [numDigits] at inside; omega)
      (by simp only [signLength] at overflows; omega)
    have length : (DecimalText.sign (number < 0) ++
        ((DecimalText.ofNat number.natAbs).take index ++ '.'.toUInt8 ::
          (DecimalText.ofNat number.natAbs).drop index)).length =
            signLength number + numDigits number + 1 := by
      rw [List.length_append, List.length_append, List.length_cons, taken]
      simp only [signLength]
      omega
    rw [exactText_of_printed (printed.trans shape),
      exact_dotted position (List.ne_nil_of_length_pos (by omega))
        (fun char member => digits char (List.mem_of_mem_take member))
        (fun char member => digits char (List.mem_of_mem_drop member))
        (by rw [List.take_append_drop, DecimalText.toNat_ofNat]) dropped rfl, length]
    constructor
    · rintro ⟨short, placed⟩
      rw [placed]
      simp only [PrintsWhole, plainWidth, intMax] at *
      left
      refine ⟨by omega, by omega, ?_⟩
      split <;> omega
    · intro whole
      have placed := layoutScale_of_printsWhole position whole
      have nonzero := some_ placed
      rw [placed] at whole nonzero
      refine ⟨?_, placed⟩
      rcases nonzero with nonzero | rfl
      · simp only [PrintsWhole, plainWidth, intMax] at *
        omega
      · decide
  · refine iff_of_false ?_ ?_
    · rintro ⟨text, again, noZero, _⟩
      rw [printed] at again
      by_cases behind : point = numDigits number + 1
      · by_cases overflows : intMax < point + signLength number
        · have faulty := formatPlain_overflow (number < 0) (DecimalText.ofNat number.natAbs)
            overflows
          cases faulty.symm.trans again
        · have shape := formatPlain_behind (number < 0) (DecimalText.ofNat number.natAbs)
            (by simp only [numDigits, signLength] at *; omega)
          have cast : ((DecimalText.ofNat number.natAbs).length + 1 : Nat) = point := by
            simp only [numDigits] at behind
            omega
          rw [cast] at shape
          obtain rfl := Except.ok.inj (shape.symm.trans again)
          simp at noZero
      · obtain ⟨fault, faulty⟩ := formatPlain_outside (number < 0)
          (DecimalText.ofNat number.natAbs) point (by simp only [numDigits] at *; omega)
        cases faulty.symm.trans again
    · intro whole
      have placed := layoutScale_of_printsWhole position whole
      rw [placed] at whole
      simp only [PrintsWhole, plainWidth, intMax] at *
      omega

theorem exact_scientific_layout (positive : 0 < scale.toInt)
    (position : point = wrapInt (numDigits number - scale.toInt)) (high : point < -5) :
    (∃ text, formatDecimal gmp number scale = .ok text ∧ ExactText text number scale) ↔
      PrintsWhole number (layoutScale number scale) := by
  have nonempty := DecimalText.ofNat_ne_nil number.natAbs
  have exponent : layoutScale number scale = numDigits number - point →
      printedExponent number (layoutScale number scale) = (point - 1).natAbs := by
    intro placed
    rw [placed, printedExponent]
    omega
  by_cases overflows : intMax < (point - 1).natAbs + 2
  · refine iff_of_false ?_ ?_
    · rintro ⟨text, again, _⟩
      rw [formatDecimal_of_pos gmp number positive] at again
      simp only [← position] at again
      rw [if_neg (show ¬ -6 ≤ point - 1 by omega)] at again
      split at again
      · cases again
      · have faulty := formatScientific_overflow (number < 0) (DecimalText.ofNat number.natAbs)
          overflows
        cases faulty.symm.trans again
    · intro whole
      have placed := layoutScale_of_printsWhole position whole
      have same := exponent placed
      rw [PrintsWhole, same, placed] at whole
      simp only [intMax] at *
      omega
  have printed : formatDecimal gmp number scale = .ok (DecimalText.sign (number < 0) ++
      (mantissa (DecimalText.ofNat number.natAbs) ++
        (sprintfExponent (point - 1) ++ exponentPad (point - 1)))) := by
    rw [formatDecimal_of_pos gmp number positive]
    simp only [← position]
    rw [if_neg (by simp only [intMin, intMax] at *; omega), if_neg (by omega)]
    exact formatScientific_eq (number < 0) nonempty (not_lt.mp overflows)
  have pads := @exponentPad_eq_nil_iff (point - 1) (by omega)
  rw [exactText_of_printed printed]
  by_cases pad : exponentPad (point - 1) = []
  · rw [pad, List.append_nil]
    have length : (DecimalText.sign (number < 0) ++ (mantissa (DecimalText.ofNat number.natAbs) ++
        sprintfExponent (point - 1))).length = signLength number + numDigits number +
          (if numDigits number = 1 then 0 else 1) + 2 +
            (DecimalText.ofNat (point - 1).natAbs).length := by
      have digits : (DecimalText.ofNat number.natAbs).length = numDigits number := rfl
      rw [List.length_append, List.length_append, length_mantissa nonempty,
        length_sprintfExponent, digits]
      simp only [signLength]
      omega
    have noZero : 0 ∉ DecimalText.sign (number < 0) ++
        (mantissa (DecimalText.ofNat number.natAbs) ++ sprintfExponent (point - 1)) := by
      obtain ⟨first, fraction, shape, same, _⟩ := exists_mantissa nonempty
      have parts := zero_notMem_digits (DecimalText.allDigits_ofNat number.natAbs)
      rw [← same, List.mem_append, not_or] at parts
      simp only [List.mem_append, not_or, shape]
      refine ⟨zero_notMem_sign _, ⟨parts.1, ?_⟩, zero_notMem_sprintfExponent _⟩
      cases fraction with
      | none => exact List.not_mem_nil
      | some fraction =>
          rw [dotted, List.mem_cons, not_or]
          exact ⟨by decide, parts.2⟩
    have scientific (short : numDigits number ≤ intMax) :=
      @denotes_scientific number (point - 1) short (by omega)
    rw [ExactText, length]
    constructor
    · rintro ⟨_, short, denotes⟩
      have placed := (layoutScale_iff position).mpr
        (((denotes_iff (scientific (by omega))).mp denotes).imp_right (by omega))
      have same := exponent placed
      right
      rw [scientificWidth, same, placed]
      exact ⟨by omega, by omega, pads.mp pad, short⟩
    · intro whole
      have placed := layoutScale_of_printsWhole position whole
      have same := exponent placed
      rw [PrintsWhole, scientificWidth, same, placed] at whole
      have short : (signLength number + numDigits number +
          (if numDigits number = 1 then 0 else 1) + 2 +
            (DecimalText.ofNat (point - 1).natAbs).length : Nat) ≤ intMax := by
        rcases whole with ⟨_, near, _⟩ | ⟨_, _, _, short⟩
        · omega
        · exact short
      refine ⟨noZero, short, (denotes_iff (scientific (by omega))).mpr ?_⟩
      exact ((layoutScale_iff position).mp placed).imp_right (by omega)
  · refine iff_of_false ?_ ?_
    · rintro ⟨noZero, _⟩
      rcases exponentPad_cases (point - 1) with ⟨none_, _⟩ | ⟨nines, _⟩
      · exact pad none_
      · rw [nines] at noZero
        simp at noZero
    · intro whole
      have placed := layoutScale_of_printsWhole position whole
      have same := exponent placed
      rw [PrintsWhole, same, placed] at whole
      rcases whole with ⟨_, near, _⟩ | ⟨_, _, others, _⟩
      · omega
      · exact pad (pads.mpr others)

end

end

/-- The text is the number unless its exponent has nines alone: the terminator is then
counted. A text longer than an `int` is not the number either. -/
theorem printsExactly_iff (sizes : SizesDecimal gmp) (number : Int) (scale : BitVec 64)
    (nonneg : 0 ≤ scale.toInt) :
    PrintsExactly gmp contents number scale ↔ PrintsWhole number (layoutScale number scale) := by
  rw [printsExactly_iff_text sizes nonneg]
  rcases nonneg.eq_or_lt with zero | positive
  · obtain rfl : scale = 0 := BitVec.eq_of_toInt_eq zero.symm
    exact exactText_integer number
  · rcases lt_or_ge (wrapInt (numDigits number - scale.toInt)) (-5) with small | near
    · exact exact_scientific_layout positive rfl small
    · rcases le_or_gt (wrapInt (numDigits number - scale.toInt)) 0 with high | low
      · exact exact_fraction_layout positive rfl near high
      · exact exact_plain_layout positive rfl low

theorem sizesDecimal_reference : SizesDecimal Gmp.reference := by
  intro n
  change _ ≤ max 1 (Nat.digits 10 n.natAbs).length
  rcases Nat.eq_zero_or_pos n.natAbs with zero | positive
  · rw [zero]
    decide
  · rw [DecimalText.length_ofNat_le_iff (lt_max_of_lt_left Nat.one_pos)]
    exact (Nat.lt_base_pow_length_digits (by decide)).trans_le
      (Nat.pow_le_pow_right (by decide) (le_max_right 1 _))

theorem ninety_five_at_scale_nine_is_exact :
    PrintsExactly Gmp.reference (fun _ => 0) 95 9 := by
  apply (printsExactly_iff Gmp.reference (fun _ => 0) sizesDecimal_reference 95 9 (by decide)).mpr
  right
  refine ⟨by decide, by decide, ?_, by decide⟩
  intro k
  have nine : printedExponent 95 (layoutScale 95 9) + 1 = 9 := by decide
  rw [nine]
  match k with
  | 0 => decide
  | k + 1 =>
      rw [pow_succ]
      omega

/-- `1E-9` is printed with a length of five. -/
theorem one_at_scale_nine_is_too_long :
    formatDecimalBuffer Gmp.reference (fun _ => 0) 1 9 =
        some (ascii "1E-9" ++ List.replicate 9 0, 5) ∧
      ¬ PrintsExactly Gmp.reference (fun _ => 0) 1 9 := by
  have written : formatDecimalBuffer Gmp.reference (fun _ => 0) 1 9 =
      some (ascii "1E-9" ++ List.replicate 9 0, 5) := by decide +kernel
  refine ⟨written, ?_⟩
  rintro ⟨buffer, length, printed, _, same, _⟩
  cases written.symm.trans printed
  exact absurd same (by decide)

end PhpDriver
