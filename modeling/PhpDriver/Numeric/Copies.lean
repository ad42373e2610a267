import PhpDriver.Decimal.Object
import PhpDriver.Numeric.Construction
import PhpDriver.Util.DecimalPrinted

namespace PhpDriver

open Data

/-! The constructors of `Bigint.c`, `Varint.c` and `Float.c`, and numbers that are built anew
from an object of their class or from its text. -/

def bigintInit (self : BitVec 64) : NumericInput 64 → Option (Initialized 64)
  | .numeric number => some { value := number, error := none }
  | .long number => some { value := number, error := none }
  | .double bits =>
      if doubleOutside (-2 ^ 63) (2 ^ 63 - 1) bits then
        some { value := self, error := some (.rangeDouble bits) }
      else if Ieee.isFinite 52 bits ∧ Fits 64 (truncated bits) then
        some { value := BitVec.ofInt 64 (truncated bits), error := none }
      else none
  | .string text =>
      match parseBigintOf text (wrapInt text.length) with
      | .error error =>
          some { value := BitVec.ofInt 64 (storedBigint text), error := some (.parse error) }
      | .ok number => some { value := BitVec.ofInt 64 number, error := none }
  | .other =>
      some { value := self,
             error := some (.invalidArgument
               "a long, a double, a numeric string or a CassandraBigint") }

inductive VarintInput where
  | long (number : BitVec 64)
  | double (bits : BitVec 64)
  | string (text : List UInt8)
  | varint (number : Int)
  | other

structure VarintInitialized where
  value : Int
  error : Option ConstructionError

/-- GMP stops the process for a double that is not finite, and a text that is no number leaves
the object alone. -/
def varintInit (gmp : Gmp) (self : Int) : VarintInput → Option VarintInitialized
  | .long number => some { value := number.toInt, error := none }
  | .double bits =>
      if Ieee.isFinite 52 bits then some { value := truncated bits, error := none } else none
  | .string text =>
      match parseVarint gmp text with
      | none => some { value := self, error := some (.parse .invalidNumber) }
      | some number => some { value := number, error := none }
  | .varint number => some { value := number, error := none }
  | .other =>
      some { value := self,
             error := some (.invalidArgument
               "a long, double, numeric string or a Cassandra\\Varint instance") }

/-! `Float`. -/

/-- What `strtof` returns, how far it got, and whether it set `ERANGE`. -/
structure ConvertedFloat where
  bits : BitVec 32
  length : Nat
  outOfRange : Bool

structure FloatConversions where
  ofLong : BitVec 64 → BitVec 32
  ofDouble : BitVec 64 → BitVec 32
  strtof : List UInt8 → ConvertedFloat

/-- The number that is stored, and the exception for the text. -/
def parseFloat (convert : FloatConversions) (input : List UInt8) (inLen : Int) :
    BitVec 32 × Option NumberError :=
  let converted := convert.strtof (cString input)
  (converted.bits,
    if converted.outOfRange then some .range
    else if converted.length = 0 then some .invalidNumber
    else if (converted.length : Int) ≠ inLen then some .invalidCharacters
    else none)

inductive FloatInput where
  | long (number : BitVec 64)
  | double (bits : BitVec 64)
  | string (text : List UInt8)
  | float (bits : BitVec 32)
  | other

/-- The object that is written: the one the constructor is called on, or a new one in
`return_value`, whose number is zero. -/
inductive FloatTarget where
  | this
  | returnValue

structure FloatInitialized where
  value : BitVec 32
  error : Option ConstructionError

def floatInit (convert : FloatConversions) (self : BitVec 32) (target : FloatTarget) :
    FloatInput → Option FloatInitialized
  | .long number => some { value := convert.ofLong number, error := none }
  | .double bits => some { value := convert.ofDouble bits, error := none }
  | .string text =>
      let (bits, error) := parseFloat convert text (wrapInt text.length)
      some { value := bits, error := error.map .parse }
  | .float _ =>
      -- the number is read from `return_value`, which is no object in a constructor
      match target with
      | .this => none
      | .returnValue => some { value := 0, error := none }
  | .other =>
      some { value := self,
             error := some (.invalidArgument
               "a long, double, numeric string or a Cassandra\\Float instance") }

inductive NumericObject where
  | bigint (value : BitVec 64)
  | smallint (value : BitVec 16)
  | tinyint (value : BitVec 8)
  | varint (value : Int)
  | decimal (value : Decimal)
  | float (bits : BitVec 32)
deriving DecidableEq

/-- The number of a constructor that did not throw. -/
def Initialized.built {width : Nat} (initialized : Initialized width) : Option (BitVec width) :=
  if initialized.error = none then some initialized.value else none

def VarintInitialized.built (initialized : VarintInitialized) : Option Int :=
  if initialized.error = none then some initialized.value else none

def FloatInitialized.built (initialized : FloatInitialized) : Option (BitVec 32) :=
  if initialized.error = none then some initialized.value else none

section

variable (gmp : Gmp) (convert : FloatConversions) (contents : Nat → UInt8)

/-- The text of an object whose number `php_driver_format_integer` prints. The length is an
`int`, and a negative one no size of a string. -/
def integerText (number : Int) : Option (List UInt8) := do
  let (out, length) ← formatIntegerBuffer gmp contents number
  if length < 0 then none else some (out.take length.toNat)

namespace NumericObject

def copy : NumericObject → Option NumericObject
  | .bigint value => ((bigintInit 0 (.numeric value)).bind Initialized.built).map .bigint
  | .smallint value => ((smallintInit 0 (.numeric value)).bind Initialized.built).map .smallint
  | .tinyint value => ((tinyintInit 0 (.numeric value)).bind Initialized.built).map .tinyint
  | .varint value => ((varintInit gmp 0 (.varint value)).bind VarintInitialized.built).map .varint
  | .decimal value => do
      let heap ← decimalInit gmp (decimalNew [value]) 1 (.decimal 0)
      (heap[1]?).map .decimal
  | .float bits =>
      ((floatInit convert 0 .this (.float bits)).bind FloatInitialized.built).map .float

def string : NumericObject → Option (List UInt8)
  | .bigint value => some (DecimalText.ofInt value.toInt)
  | .smallint value => some (DecimalText.ofInt value.toInt)
  | .tinyint value => some (DecimalText.ofInt value.toInt)
  | .varint value => integerText gmp contents value
  | .decimal _ | .float _ => none

def ofString (text : List UInt8) : NumericObject → Option NumericObject
  | .bigint _ => ((bigintInit 0 (.string text)).bind Initialized.built).map .bigint
  | .smallint _ => ((smallintInit 0 (.string text)).bind Initialized.built).map .smallint
  | .tinyint _ => ((tinyintInit 0 (.string text)).bind Initialized.built).map .tinyint
  | .varint _ => ((varintInit gmp 0 (.string text)).bind VarintInitialized.built).map .varint
  | .decimal _ | .float _ => none

def reread (object : NumericObject) : Option NumericObject :=
  (object.string gmp contents).bind fun text => object.ofString gmp text

def IsFloat : NumericObject → Prop
  | .float _ => True
  | _ => False

def integer? : NumericObject → Option Int
  | .bigint value => some value.toInt
  | .smallint value => some value.toInt
  | .tinyint value => some value.toInt
  | .varint value => some value
  | .decimal _ | .float _ => none

theorem copy_iff (object : NumericObject) :
    object.copy gmp convert = some object ↔ ¬ object.IsFloat := by
  cases object with
  | bigint value => exact iff_of_true rfl id
  | smallint value => exact iff_of_true rfl id
  | tinyint value => exact iff_of_true rfl id
  | varint value => exact iff_of_true rfl id
  | decimal value => exact iff_of_true rfl id
  | float bits => exact iff_of_false (by simp [copy, floatInit]) fun other => other trivial

end NumericObject

end

theorem isLiteral_ofInt (gmp : Gmp) (n : Int) :
    Numeral.IsLiteral literalBases (DecimalText.ofInt n) n := by
  have literal := isLiteral_formatInteger gmp n
  rwa [formatInteger, gmp.getStr_eq] at literal

theorem parseFixed_ofInt (gmp : Gmp) {width : Nat} (positive : 0 < width) (narrow : width ≤ 64)
    {n : Int} (fits : Fits width n) :
    parseFixed width (DecimalText.ofInt n) (wrapInt (DecimalText.ofInt n).length) = .ok n := by
  have short := length_formatInteger_le gmp (fits.mono narrow)
  rw [formatInteger, gmp.getStr_eq] at short
  exact (parseFixed_of_literal positive narrow (isLiteral_ofInt gmp n) fits _).mpr
    (length_eq_wrapInt_iff.mpr short)

theorem narrowInit_ofInt (gmp : Gmp) {width : Nat} (narrow : width ≤ 32) (expected : String)
    (self value : BitVec width) :
    narrowInit expected self (.string (DecimalText.ofInt value.toInt)) =
      some { value, error := none } := by
  have parsed : parseInt (DecimalText.ofInt value.toInt)
      (wrapInt (DecimalText.ofInt value.toInt).length) = .ok value.toInt :=
    parseFixed_ofInt gmp (by decide) (by decide) ((fits_toInt value).mono narrow)
  simp only [narrowInit, parsed, storeNarrow, if_pos (fits_toInt value), BitVec.ofInt_toInt]

section

variable {gmp : Gmp} {contents : Nat → UInt8}

theorem parseVarint_sign (reads : gmp.ReadsNumbers) (sign : Numeral.Sign) :
    parseVarint gmp sign.text = none := by
  have refused : gmp.mpzSetStr (cString []) 0 = none := by
    apply reads.refuses 0 [] (by decide)
    intro may
    obtain ⟨negative, digits, same, kind⟩ := may
    have none : digits = [] := (List.append_eq_nil_iff.mp same.symm).2
    rcases kind with ⟨_, inBase⟩ | ⟨_, _, _, shape⟩
    · exact ne_nil_of_inBase inBase none
    · rw [none] at shape
      cases shape
  have signed : Numeral.Signed sign.text sign [] := ⟨(List.append_nil _).symm, by simp⟩
  rw [parseVarint_announced signed (.plain (by decide)), refused]
  rfl

theorem ofInt_eq_signed (n : Int) : ∃ sign : Numeral.Sign,
    DecimalText.ofInt n = sign.text ++ DecimalText.ofNat n.natAbs ∧ sign ≠ .plus := by
  by_cases negative : n < 0
  · refine ⟨.minus, ?_, by decide⟩
    rw [DecimalText.ofInt, decide_eq_true negative]
    rfl
  · refine ⟨.none, ?_, by decide⟩
    rw [DecimalText.ofInt, decide_eq_false negative]
    rfl

theorem parseVarint_take_ne (reads : gmp.ReadsNumbers) {n : Int} {count : Nat}
    (short : count < (DecimalText.ofInt n).length) :
    parseVarint gmp ((DecimalText.ofInt n).take count) ≠ some n := by
  obtain ⟨sign, text, noPlus⟩ := ofInt_eq_signed n
  rw [text, List.length_append] at short
  rw [text, List.take_append]
  cases shown : count - sign.text.length with
  | zero =>
      rw [List.take_zero, List.append_nil]
      have part : ∃ other : Numeral.Sign, sign.text.take count = other.text := by
        cases sign with
        | none => exact ⟨.none, by simp [Numeral.Sign.text]⟩
        | plus => exact absurd rfl noPlus
        | minus =>
            cases count with
            | zero => exact ⟨.none, rfl⟩
            | succ count => exact ⟨.minus, by simp [Numeral.Sign.text]⟩
      obtain ⟨other, same⟩ := part
      rw [same, parseVarint_sign reads]
      simp
  | succ more =>
      rw [List.take_of_length_le (by omega)]
      have all := DecimalText.allDigits_ofNat n.natAbs
      have someDigits : (DecimalText.ofNat n.natAbs).take (more + 1) ≠ [] := by
        cases digits : DecimalText.ofNat n.natAbs with
        | nil => exact absurd digits (DecimalText.ofNat_ne_nil _)
        | cons first rest => simp
      have taken : DecimalText.AllDigits ((DecimalText.ofNat n.natAbs).take (more + 1)) :=
        fun char member => all char (List.mem_of_mem_take member)
      have large : 10 ^ (more + 1) ≤ n.natAbs := by
        apply Nat.not_lt.mp
        intro small
        have length := (DecimalText.length_ofNat_le_iff (Nat.succ_pos more)).mpr small
        omega
      have plain : ((DecimalText.ofNat n.natAbs).take (more + 1)).head? ≠ some '0'.toUInt8 := by
        rw [List.head?_take, if_neg (by omega)]
        apply DecimalText.head?_ofNat_ne_zero
        have power : 0 < 10 ^ (more + 1) := Nat.pow_pos (by decide)
        omega
      have magnitude := @Numeral.Magnitude.decimal literalBases _
        (Numeral.isNumeral_ten_iff.mpr ⟨someDigits, taken⟩) plain
      rw [parseVarint_of_literal reads ⟨sign, _, _, rfl, magnitude, rfl⟩]
      intro same
      have smaller := DecimalText.toNat_lt taken
      have size := congrArg Int.natAbs (Option.some.inj same)
      have digits : ((DecimalText.ofNat n.natAbs).take (more + 1)).length ≤ more + 1 :=
        List.length_take_le _ _
      have power := Nat.pow_le_pow_right (by decide : 0 < 10) digits
      rw [DecimalText.natAbs_signed, Numeral.value_ten taken] at size
      omega

theorem integerText_of_printed {n : Int} {out : List UInt8} {length : Int}
    (printed : formatIntegerBuffer gmp contents n = some (out, length)) :
    integerText gmp contents n =
      if length < 0 then none else some (out.take length.toNat) := by
  rw [integerText, printed]
  rfl

/-- The text of a `Varint` denotes its number unless its length is no `int`. -/
theorem reread_varint_iff (reads : gmp.ReadsNumbers) (sizes : SizesDecimal gmp) (n : Int) :
    (integerText gmp contents n).bind (parseVarint gmp) = some n ↔
      ((DecimalText.ofInt n).length : Int) ≤ intMax := by
  obtain ⟨rest, printed, _⟩ := @formatIntegerBuffer_prints gmp contents sizes n
  have text : DecimalText.sign (n < 0) ++ DecimalText.ofNat n.natAbs = DecimalText.ofInt n := rfl
  rw [text] at printed
  rw [integerText_of_printed printed]
  constructor
  · intro same
    apply Int.not_lt.mp
    intro long
    have below := wrapInt_le_sub long
    split at same
    · cases same
    · rename_i nonneg
      rw [Option.bind_some, List.take_append_of_le_length (by omega)] at same
      exact parseVarint_take_ne reads (by omega) same
  · intro short
    have whole := length_eq_wrapInt_iff.mpr short
    rw [if_neg (by omega), Option.bind_some, ← whole, Int.toNat_natCast, List.take_left]
    exact parseVarint_of_literal reads (isLiteral_ofInt gmp n)

end

namespace NumericObject

variable {gmp : Gmp} {contents : Nat → UInt8}

theorem reread_iff (reads : gmp.ReadsNumbers) (sizes : SizesDecimal gmp)
    {object : NumericObject} {n : Int} (holds : object.integer? = some n) :
    object.reread gmp contents = some object ↔
      ((DecimalText.ofInt n).length : Int) ≤ intMax := by
  have short {width : Nat} (narrow : width ≤ 64) (value : BitVec width) :
      ((DecimalText.ofInt value.toInt).length : Int) ≤ intMax := by
    have length := length_formatInteger_le gmp ((fits_toInt value).mono narrow)
    rwa [formatInteger, gmp.getStr_eq] at length
  cases object with
  | decimal value => cases holds
  | float bits => cases holds
  | bigint value =>
      cases holds
      refine iff_of_true ?_ (short (by decide) value)
      have parsed : parseBigintOf (DecimalText.ofInt value.toInt)
          (wrapInt (DecimalText.ofInt value.toInt).length) = .ok value.toInt :=
        parseFixed_ofInt gmp (by decide) (by decide) (fits_toInt value)
      simp only [reread, string, ofString, Option.bind_some, bigintInit, parsed,
        Initialized.built, if_true, BitVec.ofInt_toInt, Option.map_some]
  | smallint value =>
      cases holds
      refine iff_of_true ?_ (short (by decide) value)
      simp only [reread, string, ofString, smallintInit, Option.bind_some,
        narrowInit_ofInt gmp (by decide : 16 ≤ 32), Initialized.built, if_true,
        Option.map_some]
  | tinyint value =>
      cases holds
      refine iff_of_true ?_ (short (by decide) value)
      simp only [reread, string, ofString, tinyintInit, Option.bind_some,
        narrowInit_ofInt gmp (by decide : 8 ≤ 32), Initialized.built, if_true,
        Option.map_some]
  | varint value =>
      cases holds
      rw [← @reread_varint_iff gmp contents reads sizes n, reread, string]
      cases integerText gmp contents n with
      | none => simp
      | some text =>
          simp only [Option.bind_some, ofString, varintInit]
          cases parseVarint gmp text with
          | none => simp [VarintInitialized.built]
          | some number => simp [VarintInitialized.built]

end NumericObject

def zeroConversions : FloatConversions where
  ofLong _ := 0
  ofDouble _ := 0
  strtof _ := { bits := 0, length := 0, outOfRange := false }

end PhpDriver
