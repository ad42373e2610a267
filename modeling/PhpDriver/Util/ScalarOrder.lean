import PhpDriver.Data.LawfulOrder
import PhpDriver.TypeOrder
import PhpDriver.Util.Handlers

namespace PhpDriver

open Data

/-! The `compare` and `hash_value` functions that the scalar classes define for themselves,
whether or not a handler table leads to them. -/

def Scalar.zType (value : Scalar) : Nat :=
  (Zval.scalar value).zType

def decimalCompare (first second : Decimal) : Int :=
  if first.scale = second.scale then compareInt first.value second.value
  else compareInt first.scale.toInt second.scale.toInt

def floatCompare (first second : BitVec 32) : Int :=
  if Ieee.less floatFraction first second then -1
  else if Ieee.less floatFraction second first then 1
  else compareInt (floatToBits first).toInt (floatToBits second).toInt

def blobCompare (first second : List UInt8) : Int :=
  if first.length = second.length then memcmp first second
  else compareNat first.length second.length

def durationCompare (months days : BitVec 32) (nanos : BitVec 64)
    (otherMonths otherDays : BitVec 32) (otherNanos : BitVec 64) : Int :=
  thenCompare (compareInt months.toInt otherMonths.toInt)
    (thenCompare (compareInt days.toInt otherDays.toInt)
      (compareInt nanos.toInt otherNanos.toInt))

namespace Scalar

/-- The branch of `php_driver_value_compare` that the common type of two values selects. -/
def compareAlike : Scalar → Scalar → Int
  | .long first, .long second => compareInt first.toInt second.toInt
  | .double first, .double second => doubleCompare first second
  | .bool _, .bool _ => 0
  | .string first, .string second => zendBinaryStrcmp first second
  | .bigint first, .bigint second => compareInt first.toInt second.toInt
  | .smallint first, .smallint second => compareInt first.toInt second.toInt
  | .tinyint first, .tinyint second => compareInt first.toInt second.toInt
  | .varint first, .varint second => compareInt first second
  | .decimal first, .decimal second => decimalCompare first second
  | .float first, .float second => floatCompare first second
  | .blob first, .blob second => blobCompare first second
  | .timestamp first, .timestamp second => compareInt first.toInt second.toInt
  -- a date is unsigned
  | .date first, .date second => compareNat first.toNat second.toNat
  | .time first, .time second => compareInt first.toInt second.toInt
  | .uuid firstTime firstClock, .uuid secondTime secondClock =>
      uuidCompare firstTime firstClock secondTime secondClock
  | .timeuuid firstTime firstClock, .timeuuid secondTime secondClock =>
      uuidCompare firstTime firstClock secondTime secondClock
  | .inet first, .inet second => blobCompare first second
  | .duration firstMonths firstDays firstNanos, .duration secondMonths secondDays secondNanos =>
      durationCompare firstMonths firstDays firstNanos secondMonths secondDays secondNanos
  -- different classes
  | _, _ => 1

def ownHash : Scalar → BitVec 32
  | .long value => bigintHash value
  | .double bits => doubleHash bits
  | .bool value => if value then 1 else 0
  | .string bytes => zendInlineHash bytes
  | .bigint value => bigintHash value
  | .smallint value => 31 * 17 + value.signExtend 32
  | .tinyint value => 31 * 17 + value.signExtend 32
  | .varint value => mpzHash 0 value
  | .decimal value => mpzHash (value.scale.setWidth 32) value.value
  | .float bits => floatToBits bits
  | .blob bytes => zendInlineHash bytes
  | .timestamp value => bigintHash value
  | .date value => 31 * 17 + value
  | .time value => bigintHash value
  | .uuid timeAndVersion clockSeqAndNode =>
      combineHash (bigintHash timeAndVersion) (bigintHash clockSeqAndNode)
  | .timeuuid timeAndVersion clockSeqAndNode =>
      combineHash (bigintHash timeAndVersion) (bigintHash clockSeqAndNode)
  | .inet address => zendInlineHash address
  | .duration months days nanos => durationHashValue months days nanos

def Alike (first second : Scalar) : Prop :=
  first.zType = second.zType ∧ first.valueClass = second.valueClass

end Scalar

/-! Each comparison is that of integers, or of several of them in turn. -/

theorem compareInt_lawful : LawfulOn (fun _ => True) compareInt where
  refl := fun _ _ => compareInt_eq_zero_iff.mpr rfl
  swap := by
    intro first second _ _
    grind [compareInt]
  trans := by
    intro first second third _ _ _ lower upper
    grind [compareInt]

theorem compareNat_lawful : LawfulOn (fun _ => True) compareNat where
  refl := fun number _ => compareNat_self number
  swap := by
    intro first second _ _
    grind [compareNat]
  trans := fun _ _ _ _ _ _ => compareNat_trans

theorem memcmp_eq_lexCompare {first second : List UInt8} (lengths : first.length = second.length) :
    memcmp first second =
      lexCompare (fun byte other => compareNat byte.toNat other.toNat) first second := by
  induction first generalizing second with
  | nil => cases second with
    | nil => rfl
    | cons other others => cases lengths
  | cons byte bytes ih => cases second with
    | nil => cases lengths
    | cons other others =>
        rw [memcmp, lexCompare, ih (Nat.succ.inj lengths)]
        split
        · rename_i same
          rw [same, compareNat_self, thenCompare_zero_left]
        · rename_i differs
          rw [thenCompare_of_ne_zero]
          rw [ne_eq, compareNat_eq_zero_iff, UInt8.toNat_inj]
          exact differs

theorem bytes_lawful :
    LawfulOn (fun _ => True)
      (lexCompare fun byte other : UInt8 => compareNat byte.toNat other.toNat) :=
  (compareNat_lawful.comap UInt8.toNat).lex.mono fun _ _ _ _ => trivial

theorem zendBinaryStrcmp_eq_lexCompare (first second : List UInt8) :
    zendBinaryStrcmp first second =
      lexCompare (fun byte other => compareNat byte.toNat other.toNat) first second := by
  induction first generalizing second with
  | nil => cases second <;> simp [zendBinaryStrcmp, memcmp, lexCompare, compareNat]
  | cons byte bytes ih => cases second with
    | nil => simp [zendBinaryStrcmp, memcmp, lexCompare, compareNat]
    | cons other others =>
        rw [lexCompare, ← ih]
        by_cases same : byte = other
        · rw [same, compareNat_self, thenCompare_zero_left]
          simp [zendBinaryStrcmp, memcmp, compareNat]
        · have differs : compareNat byte.toNat other.toNat ≠ 0 := by
            rw [ne_eq, compareNat_eq_zero_iff, UInt8.toNat_inj]
            exact same
          rw [thenCompare_of_ne_zero differs]
          simp [zendBinaryStrcmp, memcmp, same, differs]

theorem blobCompare_eq (first second : List UInt8) :
    blobCompare first second =
      thenCompare (compareNat first.length second.length)
        (lexCompare (fun byte other => compareNat byte.toNat other.toNat) first second) := by
  rw [blobCompare]
  split
  · rename_i same
    rw [same, compareNat_self, thenCompare_zero_left, memcmp_eq_lexCompare same]
  · rename_i differs
    rw [thenCompare_of_ne_zero]
    rwa [ne_eq, compareNat_eq_zero_iff]

theorem blobCompare_lawful : LawfulOn (fun _ => True) blobCompare :=
  ((compareNat_lawful.comap List.length).andThen bytes_lawful).congr fun first second _ _ =>
    blobCompare_eq first second

theorem uuidCompare_eq (timeAndVersion clockSeqAndNode otherTime otherClock : BitVec 64) :
    uuidCompare timeAndVersion clockSeqAndNode otherTime otherClock =
      thenCompare (compareNat timeAndVersion.toNat otherTime.toNat)
        (compareNat clockSeqAndNode.toNat otherClock.toNat) := by
  rw [uuidCompare]
  split
  · rename_i differs
    rw [thenCompare_of_ne_zero]
    rwa [ne_eq, compareNat_eq_zero_iff, BitVec.toNat_inj]
  · rename_i same
    rw [Decidable.not_not.mp same, compareNat_self, thenCompare_zero_left]

theorem decimalCompare_eq (first second : Decimal) :
    decimalCompare first second =
      thenCompare (compareInt first.scale.toInt second.scale.toInt)
        (compareInt first.value second.value) := by
  rw [decimalCompare]
  split
  · rename_i same
    rw [same, compareInt_eq_zero_iff.mpr rfl, thenCompare_zero_left]
  · rename_i differs
    rw [thenCompare_of_ne_zero]
    rwa [ne_eq, compareInt_eq_zero_iff, BitVec.toInt_inj]

/-- Numbers are compared as numbers, and the zeros and the NaNs by their bits. -/
theorem ieeeCompare_eq {width : Nat} (fraction : Nat) {nan : BitVec (width + 1)}
    (undefined : Ieee.isNan fraction nan = true) (positive : nan.msb = false)
    (first second : BitVec (width + 1)) :
    (if Ieee.less fraction first second then -1
      else if Ieee.less fraction second first then 1
      else compareInt (Ieee.canonical fraction nan first).toInt
        (Ieee.canonical fraction nan second).toInt) =
      compareInt (Ieee.rank fraction nan first) (Ieee.rank fraction nan second) := by
  have nanValue := Ieee.toInt_eq_magnitude nan
  have firstValue := Ieee.toInt_eq_magnitude first
  have secondValue := Ieee.toInt_eq_magnitude second
  have firstBound := Ieee.magnitude_lt first
  have secondBound := Ieee.magnitude_lt second
  rw [positive, if_neg (by decide)] at nanValue
  simp only [Ieee.isNan, Nat.add_sub_cancel, decide_eq_true_iff] at undefined
  grind [Ieee.less, Ieee.canonical, Ieee.rank, Ieee.isNan, Ieee.order, compareInt]

theorem doubleCompare_eq (first second : BitVec 64) :
    doubleCompare first second =
      compareInt (Ieee.rank doubleFraction 0x7ff8000000000000 first)
        (Ieee.rank doubleFraction 0x7ff8000000000000 second) :=
  ieeeCompare_eq doubleFraction (by decide) (by decide) first second

theorem floatCompare_eq (first second : BitVec 32) :
    floatCompare first second =
      compareInt (Ieee.rank floatFraction 0x7fc00000 first)
        (Ieee.rank floatFraction 0x7fc00000 second) :=
  ieeeCompare_eq floatFraction (by decide) (by decide) first second

theorem words_lawful {width : Nat} :
    LawfulOn (fun _ => True)
      (fun first second : BitVec width => compareInt first.toInt second.toInt) :=
  compareInt_lawful.comap BitVec.toInt

theorem unsigned_lawful {width : Nat} :
    LawfulOn (fun _ => True)
      (fun first second : BitVec width => compareNat first.toNat second.toNat) :=
  compareNat_lawful.comap BitVec.toNat

theorem uuidCompare_lawful :
    LawfulOn (fun _ => True) fun first second : BitVec 64 × BitVec 64 =>
      uuidCompare first.1 first.2 second.1 second.2 :=
  ((unsigned_lawful.comap Prod.fst).andThen (unsigned_lawful.comap Prod.snd)).congr
    fun first second _ _ => uuidCompare_eq first.1 first.2 second.1 second.2

theorem durationCompare_lawful :
    LawfulOn (fun _ => True) fun first second : BitVec 32 × BitVec 32 × BitVec 64 =>
      durationCompare first.1 first.2.1 first.2.2 second.1 second.2.1 second.2.2 :=
  (words_lawful.comap Prod.fst).andThen
    ((words_lawful.comap fun duration : BitVec 32 × BitVec 32 × BitVec 64 => duration.2.1).andThen
      (words_lawful.comap fun duration : BitVec 32 × BitVec 32 × BitVec 64 => duration.2.2))

theorem decimalCompare_lawful : LawfulOn (fun _ => True) decimalCompare :=
  ((words_lawful.comap Decimal.scale).andThen (compareInt_lawful.comap Decimal.value)).congr
    fun first second _ _ => decimalCompare_eq first second

theorem doubleCompare_lawful : LawfulOn (fun _ => True) doubleCompare :=
  (compareInt_lawful.comap (Ieee.rank doubleFraction 0x7ff8000000000000)).congr
    fun first second _ _ => doubleCompare_eq first second

theorem floatCompare_lawful : LawfulOn (fun _ => True) floatCompare :=
  (compareInt_lawful.comap (Ieee.rank floatFraction 0x7fc00000)).congr
    fun first second _ _ => floatCompare_eq first second

theorem blobCompare_eq_zero_iff {first second : List UInt8} :
    blobCompare first second = 0 ↔ first = second := by
  rw [blobCompare]
  split
  · rename_i same
    exact memcmp_eq_zero_iff same
  · rename_i differs
    rw [compareNat_eq_zero_iff]
    exact ⟨fun same => absurd same differs, fun same => congrArg List.length same⟩

theorem floatCompare_eq_zero_iff (first second : BitVec 32) :
    floatCompare first second = 0 ↔ floatToBits first = floatToBits second := by
  rw [floatCompare_eq, compareInt_eq_zero_iff,
    Ieee.rank_eq_iff floatFraction (by decide) (by decide)]
  rfl

theorem strings_lawful : LawfulOn (fun _ => True) zendBinaryStrcmp :=
  bytes_lawful.congr fun first second _ _ => zendBinaryStrcmp_eq_lexCompare first second

namespace Scalar

theorem Alike.refl (value : Scalar) : value.Alike value :=
  ⟨rfl, rfl⟩

/-- Values of one constructor, which only booleans tell apart by their type. -/
inductive SameForm : Scalar → Scalar → Prop where
  | long (first second) : SameForm (.long first) (.long second)
  | double (first second) : SameForm (.double first) (.double second)
  | bool (value) : SameForm (.bool value) (.bool value)
  | string (first second) : SameForm (.string first) (.string second)
  | bigint (first second) : SameForm (.bigint first) (.bigint second)
  | smallint (first second) : SameForm (.smallint first) (.smallint second)
  | tinyint (first second) : SameForm (.tinyint first) (.tinyint second)
  | varint (first second) : SameForm (.varint first) (.varint second)
  | decimal (first second) : SameForm (.decimal first) (.decimal second)
  | float (first second) : SameForm (.float first) (.float second)
  | blob (first second) : SameForm (.blob first) (.blob second)
  | timestamp (first second) : SameForm (.timestamp first) (.timestamp second)
  | date (first second) : SameForm (.date first) (.date second)
  | time (first second) : SameForm (.time first) (.time second)
  | inet (first second) : SameForm (.inet first) (.inet second)
  | uuid (firstTime firstClock secondTime secondClock) :
      SameForm (.uuid firstTime firstClock) (.uuid secondTime secondClock)
  | timeuuid (firstTime firstClock secondTime secondClock) :
      SameForm (.timeuuid firstTime firstClock) (.timeuuid secondTime secondClock)
  | duration (firstMonths firstDays firstNanos secondMonths secondDays secondNanos) :
      SameForm (.duration firstMonths firstDays firstNanos)
        (.duration secondMonths secondDays secondNanos)

theorem Alike.sameForm {first second : Scalar} (alike : first.Alike second) :
    SameForm first second := by
  obtain ⟨types, classes⟩ := alike
  cases first with
  | bool flag =>
      cases second with
      | bool value => cases flag <;> cases value <;> first | constructor | cases types
      | long _ | double _ | string _ => cases flag <;> cases types
      | _ => cases classes
  | long _ | double _ | string _ =>
      cases second with
      | bool value => cases value <;> cases types
      | long _ | double _ | string _ => first | constructor | cases types
      | _ => cases classes
  | _ => cases second <;> first | constructor | cases classes

theorem compareAlike_of_valueClass {first second : Scalar} {own other : ValueClass}
    (firstClass : first.valueClass = some own) (secondClass : second.valueClass = some other)
    (apart : own ≠ other) : first.compareAlike second = 1 := by
  unfold compareAlike
  split <;> first
    | rfl
    | exact absurd (Option.some.inj (firstClass.symm.trans secondClass)) apart

theorem compareAlike_lawful (value : Scalar) : LawfulOn value.Alike compareAlike := by
  cases value with
  | bool flag =>
      refine .of_form (fun _ : Unit => Scalar.bool flag) ?_
        ⟨fun _ _ => rfl, fun _ _ _ _ => Iff.rfl, fun _ _ _ _ _ _ lower _ => lower⟩
      intro item alike
      cases alike.sameForm
      exact ⟨(), rfl⟩
  | long _ =>
      refine .of_form Scalar.long ?_ (words_lawful.mono fun _ _ => trivial)
      intro item alike
      cases alike.sameForm
      exact ⟨_, rfl⟩
  | double _ =>
      refine .of_form Scalar.double ?_ (doubleCompare_lawful.mono fun _ _ => trivial)
      intro item alike
      cases alike.sameForm
      exact ⟨_, rfl⟩
  | string _ =>
      refine .of_form Scalar.string ?_ (strings_lawful.mono fun _ _ => trivial)
      intro item alike
      cases alike.sameForm
      exact ⟨_, rfl⟩
  | bigint _ =>
      refine .of_form Scalar.bigint ?_ (words_lawful.mono fun _ _ => trivial)
      intro item alike
      cases alike.sameForm
      exact ⟨_, rfl⟩
  | smallint _ =>
      refine .of_form Scalar.smallint ?_ (words_lawful.mono fun _ _ => trivial)
      intro item alike
      cases alike.sameForm
      exact ⟨_, rfl⟩
  | tinyint _ =>
      refine .of_form Scalar.tinyint ?_ (words_lawful.mono fun _ _ => trivial)
      intro item alike
      cases alike.sameForm
      exact ⟨_, rfl⟩
  | varint _ =>
      refine .of_form Scalar.varint ?_ (compareInt_lawful.mono fun _ _ => trivial)
      intro item alike
      cases alike.sameForm
      exact ⟨_, rfl⟩
  | decimal _ =>
      refine .of_form Scalar.decimal ?_ (decimalCompare_lawful.mono fun _ _ => trivial)
      intro item alike
      cases alike.sameForm
      exact ⟨_, rfl⟩
  | float _ =>
      refine .of_form Scalar.float ?_ (floatCompare_lawful.mono fun _ _ => trivial)
      intro item alike
      cases alike.sameForm
      exact ⟨_, rfl⟩
  | blob _ =>
      refine .of_form Scalar.blob ?_ (blobCompare_lawful.mono fun _ _ => trivial)
      intro item alike
      cases alike.sameForm
      exact ⟨_, rfl⟩
  | timestamp _ =>
      refine .of_form Scalar.timestamp ?_ (words_lawful.mono fun _ _ => trivial)
      intro item alike
      cases alike.sameForm
      exact ⟨_, rfl⟩
  | date _ =>
      refine .of_form Scalar.date ?_ (unsigned_lawful.mono fun _ _ => trivial)
      intro item alike
      cases alike.sameForm
      exact ⟨_, rfl⟩
  | time _ =>
      refine .of_form Scalar.time ?_ (words_lawful.mono fun _ _ => trivial)
      intro item alike
      cases alike.sameForm
      exact ⟨_, rfl⟩
  | inet _ =>
      refine .of_form Scalar.inet ?_ (blobCompare_lawful.mono fun _ _ => trivial)
      intro item alike
      cases alike.sameForm
      exact ⟨_, rfl⟩
  | uuid _ _ =>
      refine .of_form (fun uuid : BitVec 64 × BitVec 64 => Scalar.uuid uuid.1 uuid.2) ?_
        (uuidCompare_lawful.mono fun _ _ => trivial)
      intro item alike
      cases alike.sameForm
      exact ⟨(_, _), rfl⟩
  | timeuuid _ _ =>
      refine .of_form (fun uuid : BitVec 64 × BitVec 64 => Scalar.timeuuid uuid.1 uuid.2) ?_
        (uuidCompare_lawful.mono fun _ _ => trivial)
      intro item alike
      cases alike.sameForm
      exact ⟨(_, _), rfl⟩
  | duration _ _ _ =>
      refine .of_form (fun duration : BitVec 32 × BitVec 32 × BitVec 64 =>
        Scalar.duration duration.1 duration.2.1 duration.2.2) ?_
        (durationCompare_lawful.mono fun _ _ => trivial)
      intro item alike
      cases alike.sameForm
      exact ⟨(_, _, _), rfl⟩

theorem ownHash_of_compareAlike {first second : Scalar} (alike : first.Alike second)
    (same : first.compareAlike second = 0) : first.ownHash = second.ownHash := by
  cases alike.sameForm with
  | bool value => rfl
  | double first second =>
      rw [compareAlike, doubleCompare_eq_zero_iff] at same
      rw [ownHash, ownHash, doubleHash, doubleHash, same]
  | float first second =>
      rw [compareAlike, floatCompare_eq_zero_iff] at same
      exact same
  | string first second =>
      rw [compareAlike, zendBinaryStrcmp_eq_zero_iff] at same
      rw [same]
  | varint first second =>
      rw [compareAlike, compareInt_eq_zero_iff] at same
      rw [same]
  | decimal first second =>
      rw [compareAlike, decimalCompare_eq, thenCompare_eq_zero_iff,
        compareInt_eq_zero_iff, compareInt_eq_zero_iff, BitVec.toInt_inj] at same
      rw [ownHash, ownHash, same.1, same.2]
  | blob first second | inet first second =>
      rw [compareAlike, blobCompare_eq_zero_iff] at same
      rw [same]
  | date first second =>
      rw [compareAlike, compareNat_eq_zero_iff, BitVec.toNat_inj] at same
      rw [same]
  | uuid firstTime firstClock secondTime secondClock
  | timeuuid firstTime firstClock secondTime secondClock =>
      rw [compareAlike, uuidCompare_eq, thenCompare_eq_zero_iff,
        compareNat_eq_zero_iff, compareNat_eq_zero_iff, BitVec.toNat_inj, BitVec.toNat_inj] at same
      rw [same.1, same.2]
  | duration firstMonths firstDays firstNanos secondMonths secondDays secondNanos =>
      rw [compareAlike, durationCompare, thenCompare_eq_zero_iff, thenCompare_eq_zero_iff,
        compareInt_eq_zero_iff, compareInt_eq_zero_iff, compareInt_eq_zero_iff,
        BitVec.toInt_inj, BitVec.toInt_inj, BitVec.toInt_inj] at same
      rw [same.1, same.2.1, same.2.2]
  | _ =>
      rw [compareAlike, compareInt_eq_zero_iff, BitVec.toInt_inj] at same
      rw [same]

end Scalar

end PhpDriver
