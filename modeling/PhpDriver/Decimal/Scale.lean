import PhpDriver.Data.Run
import PhpDriver.Decimal.Object
import PhpDriver.Util.DecimalFormat

namespace PhpDriver

open Data

/-! The scale of every decimal a program can reach. -/

def significandStart (text : List UInt8) : Nat :=
  if charAt text 0 = '+'.toUInt8 ∨ charAt text 0 = '-'.toUInt8 then 1 else 0

def exponentText (text : List UInt8) (point : Nat) : List UInt8 :=
  cString (text.drop
    (if charAt text (point + 1) = '+'.toUInt8 then point + 1 + 1 else point + 1))

/-- An exponent right behind decimal digits, without a dot, is not positive and not
below `-limit`. -/
def ExponentKeepsScale (limit : Int) (text : List UInt8) : Prop :=
  ∀ point diff,
    scanSignificand ((text.take (wrapInt text.length).toNat).drop (significandStart text))
      (significandStart text) none = .ok (point, none) →
    significandStart text < point → (point : Int) < wrapInt text.length →
    charAt text (significandStart text) ≠ '0'.toUInt8 →
    DecimalText.AllDigits (slice text (significandStart text) point) →
    sscanfInt (exponentText text point) = .converted diff →
    -limit ≤ diff ∧ diff ≤ 0

def ScaleIn (limit : Int) (scale : BitVec 64) : Prop :=
  0 ≤ scale.toInt ∧ scale.toInt ≤ limit

def AllXDigits (text : List UInt8) : Prop :=
  ∀ char ∈ text, isXDigit char = true

theorem scanSignificand_ok {rest : List UInt8} {point stop : Nat} {dot found : Option Nat}
    (scanned : scanSignificand rest point dot = .ok (stop, found)) :
    ∃ significand tail, rest = significand ++ tail ∧ stop = point + significand.length ∧
      (∀ char, tail.head? = some char → char = 'e'.toUInt8 ∨ char = 'E'.toUInt8) ∧
      ((found = dot ∧ AllXDigits significand) ∨
        (dot = none ∧ ∃ int frac, significand = int ++ '.'.toUInt8 :: frac ∧
          AllXDigits int ∧ AllXDigits frac ∧ found = some (point + int.length))) := by
  induction rest generalizing point dot with
  | nil =>
      simp only [scanSignificand, Except.ok.injEq, Prod.mk.injEq] at scanned
      obtain ⟨rfl, rfl⟩ := scanned
      exact ⟨[], [], rfl, rfl, by simp, Or.inl ⟨rfl, by simp [AllXDigits]⟩⟩
  | cons char rest ih =>
      simp only [scanSignificand] at scanned
      split at scanned
      · rename_i isDot
        subst isDot
        cases dot with
        | some other => simp at scanned
        | none =>
            obtain ⟨frac, tail, rfl, stopEq, exponent, ⟨foundEq, digits⟩ | ⟨absurdDot, _⟩⟩ :=
              ih scanned
            · refine ⟨'.'.toUInt8 :: frac, tail, rfl, by simp only [List.length_cons]; omega,
                exponent, Or.inr ⟨rfl, [], frac, rfl, by simp [AllXDigits], digits, ?_⟩⟩
              simpa using foundEq
            · cases absurdDot
      split at scanned
      · rename_i isExponent
        simp only [Except.ok.injEq, Prod.mk.injEq] at scanned
        obtain ⟨rfl, rfl⟩ := scanned
        refine ⟨[], char :: rest, rfl, rfl, ?_, Or.inl ⟨rfl, by simp [AllXDigits]⟩⟩
        rintro other same
        obtain rfl := Option.some.inj same
        exact isExponent
      split at scanned
      · rename_i hex
        obtain ⟨significand, tail, rfl, stopEq, exponent, shape⟩ := ih scanned
        have withChar {digits : List UInt8} (all : AllXDigits digits) :
            AllXDigits (char :: digits) := by
          intro other member
          rcases List.mem_cons.mp member with rfl | inRest
          · exact hex
          · exact all other inRest
        refine ⟨char :: significand, tail, rfl, by simp only [List.length_cons]; omega,
          exponent, ?_⟩
        rcases shape with ⟨foundEq, digits⟩ | ⟨noDot, int, frac, rfl, intDigits, fracDigits, at_⟩
        · exact Or.inl ⟨foundEq, withChar digits⟩
        · refine Or.inr ⟨noDot, char :: int, frac, rfl, withChar intDigits, fracDigits, ?_⟩
          rw [at_, List.length_cons]
          congr 1
          omega
      · simp at scanned

/-! The copied characters. A letter among them makes GMP refuse the text. -/

variable (gmp : Gmp)

private theorem not_mem_of_allXDigits {digits : List UInt8} (all : AllXDigits digits) :
    0 ∉ digits := fun member => absurd (all 0 member) (by decide)

private theorem mpzSetStr_letter (negative : Bool) {digits : List UInt8}
    (all : AllXDigits digits) {letter : UInt8} (hex : isXDigit letter = true)
    (noDigit : DecimalText.isDigit letter = false) (rest : List UInt8) :
    gmp.mpzSetStr (cString (DecimalText.sign negative ++ (digits ++ letter :: rest))) 10 =
      none := by
  have hexRange : (97 ≤ letter.toNat ∧ letter.toNat ≤ 102) ∨
      (65 ≤ letter.toNat ∧ letter.toNat ≤ 70) := by
    simpa [isXDigit, noDigit] using hex
  have differs (other : UInt8) (low : other.toNat < 65) : letter ≠ other := by
    rintro rfl
    omega
  have space : isSpace letter = false := by
    have blank := differs 32 (by decide)
    simp only [isSpace, blank, decide_false, Bool.false_or, Bool.and_eq_false_iff,
      decide_eq_false_iff_not]
    omega
  apply gmp.setStr_invalid _ letter _ space (differs _ (by decide)) noDigit
  rw [cString_append (by cases negative <;> decide),
    cString_append (not_mem_of_allXDigits all)]
  have kept : letter ∈ cString (letter :: rest) := by
    simp [cString, differs 0 (by decide)]
  simp [kept]

theorem allDigits_of_mpzSetStr (negative : Bool) {digits : List UInt8}
    (all : AllXDigits digits) {value : Int}
    (set : gmp.mpzSetStr (cString (DecimalText.sign negative ++ digits)) 10 = some value) :
    DecimalText.AllDigits digits := by
  intro char member
  cases digit : DecimalText.isDigit char with
  | true => rfl
  | false =>
      obtain ⟨before, after, rfl⟩ := List.append_of_mem member
      rw [mpzSetStr_letter gmp negative (fun other inBefore => all other (by simp [inBefore]))
        (all char (by simp)) digit after] at set
      cases set

theorem ne_nil_of_mpzSetStr (negative : Bool) {digits : List UInt8} {value : Int}
    (set : gmp.mpzSetStr (cString (DecimalText.sign negative ++ digits)) 10 = some value) :
    digits ≠ [] := by
  rintro rfl
  have noDigit : ∀ char ∈ cString (DecimalText.sign negative ++ []),
      DecimalText.isDigit char = false := by
    intro char member
    have inSign := (List.takeWhile_prefix _).subset member
    rw [List.append_nil] at inSign
    cases negative with
    | false => cases inSign
    | true => rw [List.mem_singleton.mp inSign]; rfl
  rw [gmp.setStr_no_digit _ noDigit] at set
  cases set

theorem scaleIn_zero {limit : Int} (low : intMax ≤ limit) : ScaleIn limit 0 := by
  simp only [intMax] at low
  have zero : (0 : BitVec 64).toInt = 0 := rfl
  rw [ScaleIn, zero]
  omega

theorem scaleIn_ofInt {limit n : Int} (nonneg : 0 ≤ n) (le : n ≤ limit)
    (high : limit ≤ longMax) : ScaleIn limit (BitVec.ofInt 64 n) := by
  simp only [longMax] at high
  have value : (BitVec.ofInt 64 n).toInt = n := by
    rw [BitVec.toInt_ofInt, Int.bmod_eq_of_le] <;> omega
  rw [ScaleIn, value]
  exact ⟨nonneg, le⟩

theorem parseInteger_scale (text : List UInt8) {slot written : Decimal}
    (result : (parseInteger gmp text slot).written = some written) :
    written.scale = 0 := by
  rw [parseInteger] at result
  split at result <;> cases result <;> rfl

theorem parseExponent_scale {limit inLen : Int} (low : intMax ≤ limit)
    (high : limit ≤ longMax) {text : List UInt8} {point : Nat} {slot written : Decimal}
    (zero : slot.scale = 0)
    (keeps : (point : Int) < inLen → ∀ diff, sscanfInt (exponentText text point) =
      .converted diff → -limit ≤ diff ∧ diff ≤ 0)
    (result : (parseExponent text inLen point slot).written = some written) :
    ScaleIn limit written.scale := by
  have zeroIn := scaleIn_zero low
  simp only [parseExponent] at result
  simp only [exponentText] at keeps
  generalize (if charAt text (point + 1) = '+'.toUInt8 then point + 1 + 1 else point + 1) =
    first at result keeps
  split at result
  · rename_i inside
    split at result
    · cases result
      rwa [zero]
    · split at result
      · cases result
        rwa [zero]
      · cases result
      · rename_i diff converted
        have bound := keeps inside diff converted
        split at result
        · cases result
          have negated : slot.scale - BitVec.ofInt 64 diff = BitVec.ofInt 64 (-diff) := by
            rw [zero, BitVec.ofInt_neg]
            simp
          rw [negated]
          exact scaleIn_ofInt (by omega) (by omega) high
        · cases result
  · cases result
    rwa [zero]

section

variable {limit inLen : Int} {text significand tail : List UInt8} {start : Nat}

private theorem drop_start (scanned : (text.take inLen.toNat).drop start = significand ++ tail) :
    ∃ beyond, text.drop start = significand ++ (tail ++ beyond) := by
  rw [List.drop_take] at scanned
  exact ⟨(text.drop start).drop (inLen.toNat - start), by
    rw [← List.append_assoc, ← scanned, List.take_append_drop]⟩

/-- Stopping before the end of the text leaves a character to stop at. -/
private theorem tail_ne_nil (scanned : (text.take inLen.toNat).drop start = significand ++ tail)
    (length : inLen ≤ text.length)
    (before : ((start + significand.length : Nat) : Int) < inLen) : tail ≠ [] := by
  rintro rfl
  have count := congrArg List.length scanned
  simp only [List.length_drop, List.length_take, List.append_nil] at count
  omega

private theorem significand_length_le
    (scanned : (text.take inLen.toNat).drop start = significand ++ tail) :
    significand.length ≤ inLen.toNat := by
  have count := congrArg List.length scanned
  simp only [List.length_drop, List.length_take, List.length_append] at count
  omega

private theorem parseSignificand_integer_scale (negative : Bool) {slot written : Decimal}
    (low : intMax ≤ limit) (high : limit ≤ longMax)
    (scanned : (text.take inLen.toNat).drop start = significand ++ tail)
    (digits : AllXDigits significand)
    (keeps : significand ≠ [] → ((start + significand.length : Nat) : Int) < inLen →
      DecimalText.AllDigits (slice text start (start + significand.length)) →
      ∀ diff, sscanfInt (exponentText text (start + significand.length)) = .converted diff →
        -limit ≤ diff ∧ diff ≤ 0)
    (result : (parseSignificand gmp text inLen start negative
      (start + significand.length) none slot).written = some written) :
    ScaleIn limit written.scale := by
  obtain ⟨beyond, dropped⟩ := drop_start scanned
  have copied : slice text start (start + significand.length) = significand := by
    rw [slice, dropped, Nat.add_sub_cancel_left, List.take_left]
  rw [copied] at keeps
  simp only [parseSignificand, copied] at result
  split at result
  · cases result
    exact scaleIn_zero low
  · split at result
    · cases result
      exact scaleIn_zero low
    · rename_i value set
      have allDigits := allDigits_of_mpzSetStr gmp negative digits set
      have nonempty := ne_nil_of_mpzSetStr gmp negative set
      exact parseExponent_scale low high rfl
        (fun inside => keeps nonempty inside allDigits) result

private theorem parseSignificand_fraction_scale (negative : Bool) {int frac : List UInt8}
    {slot written : Decimal} (low : intMax ≤ limit) (high : limit ≤ longMax)
    (scanned : (text.take inLen.toNat).drop start =
      (int ++ '.'.toUInt8 :: frac) ++ tail)
    (length : inLen ≤ text.length) (fits : inLen ≤ intMax)
    (intDigits : AllXDigits int) (fracDigits : AllXDigits frac)
    (exponent : ∀ char, tail.head? = some char →
      char = 'e'.toUInt8 ∨ char = 'E'.toUInt8)
    (result : (parseSignificand gmp text inLen start negative
      (start + (int ++ '.'.toUInt8 :: frac).length) (some (start + int.length))
        slot).written = some written) :
    ScaleIn limit written.scale := by
  obtain ⟨beyond, dropped⟩ := drop_start scanned
  have bound := significand_length_le scanned
  simp only [List.length_append, List.length_cons] at bound
  have first : slice text start (start + int.length) = int := by
    rw [slice, dropped, Nat.add_sub_cancel_left, List.append_assoc, List.take_left]
  have second : slice text (start + int.length + 1)
      (start + (int ++ '.'.toUInt8 :: frac).length + 1) = frac ++ (tail ++ beyond).take 1 := by
    have behindDot : text.drop (start + int.length + 1) = frac ++ (tail ++ beyond) := by
      rw [Nat.add_assoc, ← List.drop_drop, dropped, List.append_assoc,
        List.drop_length_add_append]
      rfl
    rw [slice, behindDot, List.take_append, List.take_of_length_le
      (by simp only [List.length_append, List.length_cons]; omega)]
    congr 2
    simp only [List.length_append, List.length_cons]
    omega
  have scale : ScaleIn limit (BitVec.ofInt 64
      ((start + (int ++ '.'.toUInt8 :: frac).length : Nat) - 1 -
        (start + int.length : Nat) : Int)) := by
    apply scaleIn_ofInt _ _ high <;>
      · simp only [List.length_append, List.length_cons]
        omega
  simp only [parseSignificand, first, second] at result
  split at result
  · cases result
    exact scale
  · split at result
    · cases result
      exact scale
    · rename_i value set
      by_cases inside : ((start + (int ++ '.'.toUInt8 :: frac).length : Nat) : Int) < inLen
      · obtain ⟨letter, rest, shape⟩ :=
          List.exists_cons_of_ne_nil (tail_ne_nil scanned length inside)
        have both : AllXDigits (int ++ frac) := by
          intro char member
          exact (List.mem_append.mp member).elim (intDigits char) (fracDigits char)
        have hex : isXDigit letter = true ∧ DecimalText.isDigit letter = false := by
          rcases exponent letter (by rw [shape]; rfl) with rfl | rfl <;> decide
        have refused := mpzSetStr_letter gmp negative both hex.1 hex.2 []
        rw [shape, List.cons_append, List.take_succ_cons, List.take_zero,
          List.append_assoc, ← List.append_assoc int, refused] at set
        cases set
      · rw [parseExponent, if_neg inside] at result
        cases result
        exact scale

/-- Whatever the parser writes, also before it throws, has a scale in range. -/
theorem parseDecimal_scale {slot written : Decimal} (low : intMax ≤ limit)
    (high : limit ≤ longMax) (slotIn : ScaleIn limit slot.scale)
    (keeps : ExponentKeepsScale limit text)
    (result : (parseDecimal gmp text (wrapInt text.length) slot).written = some written) :
    ScaleIn limit written.scale := by
  have start : (if charAt text 0 = '+'.toUInt8 ∨ (decide (charAt text 0 = '-'.toUInt8)) then
      1 else 0) = significandStart text := by
    simp only [decide_eq_true_eq]
    rfl
  have length : wrapInt text.length ≤ text.length :=
    wrapInt_le (by simp only [intMin]; omega)
  have fits := (wrapInt_bounds text.length).2
  have integer (result : (parseInteger gmp text slot).written = some written) :
      ScaleIn limit written.scale := by
    rw [parseInteger_scale gmp text result]
    exact scaleIn_zero low
  rw [parseDecimal] at result
  simp only [start] at result
  split at result
  · cases result
  split at result
  · exact integer result
  cases scan : scanSignificand ((text.take (wrapInt text.length).toNat).drop
      (significandStart text)) (significandStart text) none with
  | error fault =>
      rw [scan] at result
      cases result
      exact slotIn
  | ok stop =>
      obtain ⟨point, dot⟩ := stop
      obtain ⟨significand, tail, scanned, rfl, exponent, shape⟩ := scanSignificand_ok scan
      rw [scan] at result
      simp only at result
      split at result
      · exact integer result
      rename_i notOctal
      split at result
      · cases result
      rcases shape with ⟨rfl, digits⟩ | ⟨_, int, frac, rfl, intDigits, fracDigits, rfl⟩
      · exact parseSignificand_integer_scale gmp _ low high scanned digits
          (fun nonempty inside allDigits diff => keeps _ diff scan
            (Nat.lt_add_of_pos_right (List.length_pos_iff.mpr nonempty)) inside
            (fun zero => notOctal ⟨zero, rfl⟩) allDigits) result
      · exact parseSignificand_fraction_scale gmp _ low high scanned length fits intDigits
          fracDigits exponent result

end

theorem stripTrailingZeros_le (mantissa places : Nat) :
    (stripTrailingZeros mantissa places).2 ≤ places := by
  induction places generalizing mantissa with
  | zero => exact Nat.le_refl 0
  | succ places ih =>
      rw [stripTrailingZeros]
      split
      · exact (ih _).trans (Nat.le_succ places)
      · exact Nat.le_refl _

theorem fromDouble_scale {limit : Int} (low : intMax ≤ limit) (high : limit ≤ longMax)
    (raw : BitVec 64) : ScaleIn limit (fromDouble raw).scale := by
  simp only [fromDouble, apply_ite Decimal.scale]
  generalize equation : stripTrailingZeros _ _ = stripped
  have le : stripped.2 ≤ 1074 := by
    rw [← equation]
    refine (stripTrailingZeros_le _ _).trans ?_
    split <;> omega
  simp only [intMax, longMax] at low high
  by_cases positive : 0 < stripped.2
  · rw [if_pos positive, ← BitVec.ofInt_natCast]
    exact scaleIn_ofInt (by omega) (by omega) (by simp only [longMax]; omega)
  · rw [if_neg positive]
    exact scaleIn_zero (by simp only [intMax]; omega)

inductive DecimalAction where
  | new
  | init (self : Nat) (input : DecimalInput)
  | decode (data : List UInt8) (scale : BitVec 32)
  | add (self num : Nat)
  | sub (self num : Nat)
  | mul (self num : Nat)
  | abs (self : Nat)
  | neg (self : Nat)
deriving DecidableEq

def decimalStep (heap : DecimalHeap) : DecimalAction → Option DecimalHeap
  | .new => some (decimalNew heap)
  | .init self input => decimalInit gmp heap self input
  | .decode data scale => decodeDecimal gmp heap data scale
  | .add self num => decimalAdd heap self num
  | .sub self num => decimalSub heap self num
  | .mul self num => decimalMul heap self num
  | .abs self => decimalAbs heap self
  | .neg self => decimalNeg heap self

/-- The steps that produce a scale no smaller than zero and no larger than `limit`. -/
def KeepsScale (limit : Int) (heap : DecimalHeap) : DecimalAction → Prop
  | .init _ (.string text) => ExponentKeepsScale limit text
  | .decode _ scale => 0 ≤ scale.toInt
  | .mul self num => ∀ left right, heap[self]? = some left → heap[num]? = some right →
      left.scale.toInt + right.scale.toInt ≤ limit
  | _ => True

def HeapScaleIn (limit : Int) (heap : DecimalHeap) : Prop :=
  ∀ decimal ∈ heap, ScaleIn limit decimal.scale

section

variable {limit : Int} {heap after : DecimalHeap}

theorem HeapScaleIn.set (inside : HeapScaleIn limit heap) (index : Nat) {decimal : Decimal}
    (new : ScaleIn limit decimal.scale) : HeapScaleIn limit (heap.set index decimal) := by
  intro other member
  rcases List.mem_or_eq_of_mem_set member with old | rfl
  · exact inside other old
  · exact new

theorem HeapScaleIn.append (inside : HeapScaleIn limit heap) {decimal : Decimal}
    (new : ScaleIn limit decimal.scale) : HeapScaleIn limit (heap ++ [decimal]) := by
  intro other member
  rcases List.mem_append.mp member with old | only
  · exact inside other old
  · rw [List.mem_singleton.mp only]
    exact new

theorem HeapScaleIn.get (inside : HeapScaleIn limit heap) {index : Nat} {decimal : Decimal}
    (at_ : heap[index]? = some decimal) : ScaleIn limit decimal.scale :=
  inside decimal (List.mem_of_getElem? at_)

theorem alignDecimals_scales (inside : HeapScaleIn limit heap) {lhs rhs : Nat}
    (run : alignDecimals heap lhs rhs = some after) : HeapScaleIn limit after := by
  simp only [alignDecimals, Option.bind_eq_bind, Option.bind_eq_some_iff] at run
  obtain ⟨left, leftAt, right, rightAt, run⟩ := run
  split at run
  · obtain ⟨pow, _, rfl⟩ := by simpa [Option.bind_eq_some_iff] using run
    have leftIn := inside.get leftAt
    exact inside.set lhs leftIn
  split at run
  · obtain ⟨pow, _, rfl⟩ := by simpa [Option.bind_eq_some_iff] using run
    have rightIn := inside.get rightAt
    exact inside.set rhs rightIn
  · obtain rfl := Option.some.inj run
    exact inside

theorem alignedResult_scales (inside : HeapScaleIn limit heap) {combine : Int → Int → Int}
    {self num : Nat} (run : alignedResult combine heap self num = some after) :
    HeapScaleIn limit after := by
  simp only [alignedResult, Option.bind_eq_bind, Option.bind_eq_some_iff,
    Option.some.injEq] at run
  obtain ⟨aligned, align, left, leftAt, right, rightAt, rfl⟩ := run
  have alignedIn := alignDecimals_scales inside align
  have leftIn := alignedIn.get leftAt
  have rightIn := alignedIn.get rightAt
  apply alignedIn.append
  split
  · exact leftIn
  · exact rightIn

theorem decimalMul_scales (inside : HeapScaleIn limit heap) {self num : Nat}
    (keeps : KeepsScale limit heap (.mul self num))
    (run : decimalMul heap self num = some after) : HeapScaleIn limit after := by
  simp only [decimalMul, Option.bind_eq_bind, Option.bind_eq_some_iff] at run
  obtain ⟨left, leftAt, right, rightAt, run⟩ := run
  split at run
  · cases run
  · rename_i fits
    obtain rfl := Option.some.inj run
    apply inside.append
    rw [ScaleIn, BitVec.toInt_add_of_not_saddOverflow fits]
    have leftIn := inside.get leftAt
    have rightIn := inside.get rightAt
    have sum := keeps left right leftAt rightAt
    simp only [ScaleIn] at leftIn rightIn
    omega

theorem decimalInit_scales (low : intMax ≤ limit) (high : limit ≤ longMax)
    (inside : HeapScaleIn limit heap) {self : Nat} {input : DecimalInput}
    (keeps : KeepsScale limit heap (.init self input))
    (run : decimalInit gmp heap self input = some after) : HeapScaleIn limit after := by
  simp only [decimalInit, Option.bind_eq_bind, Option.bind_eq_some_iff] at run
  obtain ⟨slot, slotAt, run⟩ := run
  cases input with
  | long number =>
      simp only [Option.some.injEq] at run
      subst run
      exact inside.set self (scaleIn_zero low)
  | double raw =>
      have fromDouble := fromDouble_scale low high raw
      simp only [Option.some.injEq] at run
      subst run
      split
      · exact inside
      · exact inside.set self fromDouble
  | string text =>
      simp only [Option.bind_eq_some_iff, Option.some.injEq] at run
      obtain ⟨written, parsed, rfl⟩ := run
      exact inside.set self
        (parseDecimal_scale gmp low high (inside.get slotAt) keeps parsed)
  | decimal source =>
      obtain ⟨decimal, sourceAt, rfl⟩ := by simpa [Option.bind_eq_some_iff] using run
      exact inside.set self (inside.get sourceAt)
  | other =>
      simp only [Option.some.injEq] at run
      exact run ▸ inside

theorem decodeDecimal_scales (low : intMax ≤ limit) (inside : HeapScaleIn limit heap)
    {data : List UInt8} {scale : BitVec 32} (nonneg : 0 ≤ scale.toInt)
    (run : decodeDecimal gmp heap data scale = some after) : HeapScaleIn limit after := by
  simp only [decodeDecimal, Option.bind_eq_bind, Option.bind_eq_some_iff,
    Option.some.injEq] at run
  obtain ⟨value, _, rfl⟩ := run
  apply inside.append
  have bound := BitVec.toInt_lt (x := scale)
  rw [ScaleIn, BitVec.toInt_signExtend_of_le (by decide)]
  simp only [intMax] at low
  omega

theorem decimalStep_scales (low : intMax ≤ limit) (high : limit ≤ longMax)
    (inside : HeapScaleIn limit heap) {action : DecimalAction}
    (keeps : KeepsScale limit heap action)
    (taken : decimalStep gmp heap action = some after) : HeapScaleIn limit after := by
  cases action with
  | new =>
      obtain rfl := Option.some.inj taken
      exact inside.append (scaleIn_zero low)
  | init self input => exact decimalInit_scales gmp low high inside keeps taken
  | decode data scale => exact decodeDecimal_scales gmp low inside keeps taken
  | add self num => exact alignedResult_scales inside taken
  | sub self num => exact alignedResult_scales inside taken
  | mul self num => exact decimalMul_scales inside keeps taken
  | abs self =>
      obtain ⟨decimal, at_, rfl⟩ := by
        simpa [decimalStep, decimalAbs, Option.bind_eq_some_iff] using taken
      have kept := inside.get at_
      exact inside.append kept
  | neg self =>
      obtain ⟨decimal, at_, rfl⟩ := by
        simpa [decimalStep, decimalNeg, Option.bind_eq_some_iff] using taken
      have kept := inside.get at_
      exact inside.append kept

theorem decimalRun_scales (low : intMax ≤ limit) (high : limit ≤ longMax)
    {actions : List DecimalAction}
    (run : Run (decimalStep gmp) (KeepsScale limit) [] actions heap) :
    HeapScaleIn limit heap :=
  run.invariant (fun _ _ _ inside keeps => decimalStep_scales gmp low high inside keeps)
    (by simp [HeapScaleIn])

end

theorem formatDecimal_no_assertion (value : Int) {scale : BitVec 64}
    (nonneg : 0 ≤ scale.toInt) : formatDecimal gmp value scale ≠ .error .assertion := by
  simp only [formatDecimal, formatPlain, formatScientific]
  rw [if_neg (show ¬ scale.toInt < 0 by omega)]
  split_ifs <;> simp

theorem formatDecimal_no_negativeLength (value : Int) {scale : BitVec 64}
    (small : scale.toInt ≤ intMax) :
    formatDecimal gmp value scale ≠ .error .negativeLength := by
  simp only [formatDecimal]
  generalize gmp.mpzGetStr value = tmp
  generalize (if value.sign < 0 then 1 else 0) = negative
  split
  · simp
  split
  · simp
  rename_i nonneg
  have point := wrapInt_le (n := (tmp.length - negative : Nat) - scale.toInt)
    (by simp only [intMin, intMax] at *; omega)
  split
  · simp
  split
  · split
    · simp
    · simp only [formatPlain]
      split
      · simp
      · rw [if_neg (by push_cast; omega)]
        simp
  · simp only [formatScientific]
    split_ifs <;> simp

end PhpDriver
