import Mathlib.Data.Nat.Digits.Defs
import PhpDriver.Data.Uthash
import PhpDriver.Util.Validate

namespace PhpDriver

open Data

/-! Hashing and comparing of values (`util/hash.c`), with the handlers the classes have
on PHP 8. `none` stands for undefined behaviour. -/

def bigintHash (value : BitVec 64) : BitVec 32 :=
  (value ^^^ value.sshiftRight 32).setWidth 32

def combineHash (seed hashv : BitVec 32) : BitVec 32 :=
  seed ^^^ (hashv + 0x9e3779b9 + (seed <<< 6) + (seed >>> 2))

/-- `mpz_getlimbn`, lowest limb first. The sign is not part of the limbs. -/
def mpzLimbs (n : Int) : List Nat :=
  Nat.digits (2 ^ 64) n.natAbs

def mpzHash (seed : BitVec 32) (n : Int) : BitVec 32 :=
  (mpzLimbs n).foldl (fun hashv limb => combineHash hashv (bigintHash (BitVec.ofNat 64 limb)))
    seed

def doubleToBits (value : BitVec 64) : BitVec 64 :=
  if Ieee.isNan doubleFraction value then 0x7ff8000000000000 else value

def floatToBits (value : BitVec 32) : BitVec 32 :=
  if Ieee.isNan floatFraction value then 0x7fc00000 else value

def doubleHash (value : BitVec 64) : BitVec 32 :=
  bigintHash (doubleToBits value)

def durationHashValue (months days : BitVec 32) (nanos : BitVec 64) : BitVec 32 :=
  let hashv := combineHash 0 months
  let hashv := combineHash hashv days
  combineHash hashv (nanos.setWidth 32)

/-- A call through the `hash_value` slot of an object. -/
def hashValue : Zval → Option (BitVec 32)
  | .scalar (.varint value) => some (mpzHash 0 value)
  | .scalar (.float value) => some (floatToBits value)
  | .scalar (.decimal value) => some (mpzHash (value.scale.setWidth 32) value.value)
  | .scalar (.duration months days nanos) => some (durationHashValue months days nanos)
  -- the slot is only filled before PHP 8
  | .scalar (.bigint _) | .scalar (.blob _) | .scalar (.date _) | .scalar (.uuid _ _)
  | .scalar (.inet _) | .collection _ _ => none
  -- the table of handlers is Zend's own and ends before the slot
  | .scalar (.smallint _) | .scalar (.tinyint _) | .scalar (.timestamp _)
  | .scalar (.time _) | .scalar (.timeuuid _ _) | .set _ _ | .map _ _ _ | .tuple _ _
  | .userTypeValue _ _ => none
  -- not an object of the driver
  | _ => none

def zendInlineHash (bytes : List UInt8) : BitVec 32 :=
  bytes.foldl (fun hashv byte => hashv * 33 + byte.toBitVec.setWidth 32) 5381

/-- `zendHash` is Zend's hash of a string, cut to an `unsigned`. -/
def valueHash (zendHash : List UInt8 → BitVec 32) : Zval → Option (BitVec 32)
  | .null => some 0
  | .scalar (.long value) => some (bigintHash value)
  | .scalar (.double value) => some (doubleHash value)
  | .scalar (.bool value) => some (if value then 1 else 0)
  | .scalar (.string bytes) => some (zendHash bytes)
  | object => hashValue object

/-- `PHP_DRIVER_COMPARE`. -/
def compareInt (first second : Int) : Int :=
  if first < second then -1 else if second < first then 1 else 0

def doubleCompare (first second : BitVec 64) : Int :=
  if Ieee.less doubleFraction first second then -1
  else if Ieee.less doubleFraction second first then 1
  else compareInt (doubleToBits first).toInt (doubleToBits second).toInt

def zendBinaryStrcmp (first second : List UInt8) : Int :=
  let result := memcmp first second
  if result ≠ 0 then result else compareNat first.length second.length

def uuidCompare (timeAndVersion clockSeqAndNode otherTime otherClock : BitVec 64) : Int :=
  if timeAndVersion ≠ otherTime then compareNat timeAndVersion.toNat otherTime.toNat
  else compareNat clockSeqAndNode.toNat otherClock.toNat

/-- A call through the `compare` slot of two objects. -/
def objectCompare : Zval → Zval → Option Int
  | .scalar (.bigint first), .scalar (.bigint second) =>
      some (compareInt first.toInt second.toInt)
  | .scalar (.smallint first), .scalar (.smallint second) =>
      some (compareInt first.toInt second.toInt)
  | .scalar (.tinyint first), .scalar (.tinyint second) =>
      some (compareInt first.toInt second.toInt)
  | .scalar (.timestamp first), .scalar (.timestamp second) =>
      some (compareInt first.toInt second.toInt)
  | .scalar (.time first), .scalar (.time second) =>
      some (compareInt first.toInt second.toInt)
  | .scalar (.timeuuid firstTime firstClock), .scalar (.timeuuid secondTime secondClock) =>
      some (uuidCompare firstTime firstClock secondTime secondClock)
  -- Zend compares the declared properties, of which there are none
  | .scalar (.varint _), .scalar (.varint _) | .scalar (.float _), .scalar (.float _)
  | .scalar (.decimal _), .scalar (.decimal _)
  | .scalar (.duration _ _ _), .scalar (.duration _ _ _)
  | .scalar (.blob _), .scalar (.blob _) | .scalar (.date _), .scalar (.date _)
  | .scalar (.uuid _ _), .scalar (.uuid _ _) | .scalar (.inet _), .scalar (.inet _)
  | .collection _ _, .collection _ _ | .map _ _ _, .map _ _ _ => some 0
  -- hashing one of these is undefined, so that no search gets to compare them
  | .set _ _, .set _ _ | .tuple _ _, .tuple _ _ | .userTypeValue _ _, .userTypeValue _ _
  | .foreign, _ | _, .foreign => none
  -- different classes
  | _, _ => some 1

def Zval.inheritsCompare : Zval → Bool
  | .scalar (.varint _) | .scalar (.float _) | .scalar (.decimal _)
  | .scalar (.duration _ _ _) | .scalar (.blob _) | .scalar (.date _) | .scalar (.uuid _ _)
  | .scalar (.inet _) | .collection _ _ | .map _ _ _ => true
  | _ => false

def Zval.zType : Zval → Nat
  | .null => 1
  | .scalar (.bool false) => 2
  | .scalar (.bool true) => 3
  | .scalar (.long _) => 4
  | .scalar (.double _) => 5
  | .scalar (.string _) => 6
  | _ => 8

/-- Of two values at different addresses. -/
def valueCompare (first second : Zval) : Option Int :=
  if first.zType ≠ second.zType then some (if first.zType < second.zType then -1 else 1)
  else
    match first, second with
    | .null, .null => some 0
    | .scalar (.long first), .scalar (.long second) =>
        some (compareInt first.toInt second.toInt)
    | .scalar (.double first), .scalar (.double second) => some (doubleCompare first second)
    | .scalar (.bool _), .scalar (.bool _) => some 0
    | .scalar (.string first), .scalar (.string second) =>
        some (zendBinaryStrcmp first second)
    | first, second => objectCompare first second

theorem compareInt_eq_zero_iff {first second : Int} :
    compareInt first second = 0 ↔ first = second := by
  grind [compareInt]

theorem doubleToBits_eq (bits : BitVec 64) :
    doubleToBits bits = Ieee.canonical doubleFraction 0x7ff8000000000000 bits := rfl

theorem doubleCompare_eq_zero_iff (first second : BitVec 64) :
    doubleCompare first second = 0 ↔ doubleToBits first = doubleToBits second := by
  rw [doubleCompare]
  by_cases same : doubleToBits first = doubleToBits second
  · rw [Ieee.less_eq_false doubleFraction same, Ieee.less_eq_false doubleFraction same.symm]
    simp [same, compareInt]
  · have differ : compareInt (doubleToBits first).toInt (doubleToBits second).toInt ≠ 0 := by
      rw [ne_eq, compareInt_eq_zero_iff, BitVec.toInt_inj]
      exact same
    grind

theorem zendBinaryStrcmp_eq_zero_iff (first second : List UInt8) :
    zendBinaryStrcmp first second = 0 ↔ first = second := by
  rw [zendBinaryStrcmp]
  by_cases lengths : first.length = second.length
  · rw [← memcmp_eq_zero_iff lengths, compareNat_eq_zero_iff.mpr lengths]
    grind
  · have differs : first ≠ second := fun same => lengths (by rw [same])
    have counts := mt compareNat_eq_zero_iff.mp lengths
    grind

/-! Values with one meaning have one hash and one type. -/

private theorem canonical_canonical_double (bits : BitVec 64) :
    doubleToBits (Ieee.canonical doubleFraction 0x7ff8000000000000 bits) =
      doubleToBits bits := by
  have nan : Ieee.isNan doubleFraction (0x7ff8000000000000 : BitVec 64) = true := by decide
  grind [doubleToBits, Ieee.canonical]

private theorem canonical_canonical_float (bits : BitVec 32) :
    floatToBits (Ieee.canonical floatFraction 0x7fc00000 bits) = floatToBits bits := by
  have nan : Ieee.isNan floatFraction (0x7fc00000 : BitVec 32) = true := by decide
  grind [floatToBits, Ieee.canonical]

variable {zendHash : List UInt8 → BitVec 32}

theorem valueHash_normal (value : Scalar) :
    valueHash zendHash (.scalar value.normal) = valueHash zendHash (.scalar value) := by
  cases value with
  | double bits =>
      simp only [Scalar.normal, valueHash, doubleHash, canonical_canonical_double]
  | float bits => simp only [Scalar.normal, valueHash, hashValue, canonical_canonical_float]
  | _ => rfl

theorem zType_normal (value : Scalar) :
    (Zval.scalar value.normal).zType = (Zval.scalar value).zType := by
  cases value <;> rfl

theorem valueHash_congr {first second : Zval} (same : first.meaning = second.meaning) :
    valueHash zendHash first = valueHash zendHash second := by
  cases first with
  | scalar first =>
      cases second with
      | scalar second =>
          simp only [Zval.meaning, CassValue.scalar.injEq] at same
          rw [← valueHash_normal first, same, valueHash_normal second]
      | _ => simp [Zval.meaning] at same
  | _ =>
      cases second with
      | scalar second => simp [Zval.meaning] at same
      | _ => simp_all [Zval.meaning, valueHash, hashValue]

theorem zType_congr {first second : Zval} (same : first.meaning = second.meaning) :
    first.zType = second.zType := by
  cases first with
  | scalar first =>
      cases second with
      | scalar second =>
          simp only [Zval.meaning, CassValue.scalar.injEq] at same
          rw [← zType_normal first, same, zType_normal second]
      | _ => simp [Zval.meaning] at same
  | _ =>
      cases second with
      | scalar second => simp [Zval.meaning] at same
      | _ => simp_all [Zval.meaning, Zval.zType]

/-- A value that can be hashed is none of the objects with a comparison of their own. -/
inductive Hashable : Zval → Prop
  | null : Hashable .null
  | long (value : BitVec 64) : Hashable (.scalar (.long value))
  | double (bits : BitVec 64) : Hashable (.scalar (.double bits))
  | bool (value : Bool) : Hashable (.scalar (.bool value))
  | string (bytes : List UInt8) : Hashable (.scalar (.string bytes))
  | object {value : Zval} (inherits : value.inheritsCompare) (type : value.zType = 8) :
      Hashable value

theorem hashable_of_isSome {value : Zval} (hashed : (valueHash zendHash value).isSome) :
    Hashable value := by
  cases value with
  | null => exact .null
  | scalar value =>
      cases value with
      | long value => exact .long value
      | double bits => exact .double bits
      | bool value => exact .bool value
      | string bytes => exact .string bytes
      | varint _ | float _ | decimal _ | duration _ _ _ => exact .object rfl rfl
      | _ => simp [valueHash, hashValue] at hashed
  | _ => simp [valueHash, hashValue] at hashed

theorem objectCompare_of_inherits {first second : Zval} (inherits : second.inheritsCompare)
    (same : first.meaning = second.meaning) : objectCompare first second = some 0 := by
  cases second with
  | scalar second =>
      cases first with
      | scalar first =>
          simp only [Zval.meaning, CassValue.scalar.injEq] at same
          cases second <;> try cases inherits
          all_goals cases first <;> first | rfl | cases same
      | _ => simp [Zval.meaning] at same
  | collection _ _ | map _ _ _ =>
      cases first with
      | collection _ _ | map _ _ _ => first | rfl | simp [Zval.meaning] at same
      | _ => simp [Zval.meaning] at same
  | _ => cases inherits

theorem valueCompare_of_object {first second : Zval} (firstType : first.zType = 8)
    (secondType : second.zType = 8) :
    valueCompare first second = objectCompare first second := by
  unfold valueCompare
  rw [firstType, secondType, if_neg (by decide)]
  split
  · cases firstType
  · cases firstType
  · cases firstType
  · rename_i value _
    cases value <;> cases firstType
  · cases firstType
  · rfl

/-- Where the comparison is Zend's, the values have to be the same already. -/
theorem valueCompare_cases {first second : Zval}
    (firstHashed : (valueHash zendHash first).isSome)
    (secondHashed : (valueHash zendHash second).isSome)
    (apart : second.inheritsCompare → first.meaning = second.meaning) :
    ∃ order, valueCompare first second = some order ∧
      (order = 0 ↔ first.meaning = second.meaning) := by
  by_cases types : first.zType = second.zType
  · cases hashable_of_isSome firstHashed with
    | null =>
        cases hashable_of_isSome secondHashed with
        | null => exact ⟨0, rfl, by simp⟩
        | object _ type => rw [type] at types; cases types
        | bool value => cases value <;> cases types
        | _ => cases types
    | long first =>
        cases hashable_of_isSome secondHashed with
        | long second =>
            refine ⟨_, rfl, ?_⟩
            rw [compareInt_eq_zero_iff, BitVec.toInt_inj]
            simp [Zval.meaning, Scalar.normal]
        | object _ type => rw [type] at types; cases types
        | bool value => cases value <;> cases types
        | _ => cases types
    | double first =>
        cases hashable_of_isSome secondHashed with
        | double second =>
            refine ⟨_, rfl, ?_⟩
            rw [doubleCompare_eq_zero_iff, doubleToBits_eq, doubleToBits_eq]
            simp [Zval.meaning, Scalar.normal]
        | object _ type => rw [type] at types; cases types
        | bool value => cases value <;> cases types
        | _ => cases types
    | bool first =>
        cases hashable_of_isSome secondHashed with
        | bool second =>
            cases first <;> cases second <;> cases types <;>
              exact ⟨0, rfl, by simp⟩
        | object _ type => rw [type] at types; cases first <;> cases types
        | _ => cases first <;> cases types
    | string first =>
        cases hashable_of_isSome secondHashed with
        | string second =>
            refine ⟨_, rfl, ?_⟩
            rw [zendBinaryStrcmp_eq_zero_iff]
            simp [Zval.meaning, Scalar.normal]
        | object _ type => rw [type] at types; cases types
        | bool value => cases value <;> cases types
        | _ => cases types
    | object _ firstType =>
        cases hashable_of_isSome secondHashed with
        | object inherits secondType =>
            refine ⟨0, ?_, by simp [apart inherits]⟩
            rw [valueCompare_of_object firstType secondType]
            exact objectCompare_of_inherits inherits (apart inherits)
        | bool value => cases value <;> rw [firstType] at types <;> cases types
        | _ => rw [firstType] at types; cases types
  · refine ⟨_, by unfold valueCompare; rw [if_pos types], ?_⟩
    have differ : first.meaning ≠ second.meaning := fun same => types (zType_congr same)
    grind

/-- How values are hashed and compared: the handlers in place may be any functions, and
calling them may be undefined. -/
structure ValueHandlers where
  hash : Zval → Option (BitVec 32)
  compare : Zval → Zval → Option Int

def installedHandlers (zendHash : List UInt8 → BitVec 32) : ValueHandlers where
  hash := valueHash zendHash
  compare := valueCompare

def hashFindZval (zendHash : List UInt8 → BitVec 32) (head : UtHash Zval Value) (key : Zval) :
    Option (Option (UtHandle Zval)) :=
  head.find (valueHash zendHash) valueCompare key

def hashAddZval (zendHash : List UInt8 → BitVec 32) (head : UtHash Zval Value) (key : Zval)
    (value : Value) : Option (UtHash Zval Value) :=
  head.add (valueHash zendHash) key value

@[simp] theorem find_installed (head : UtHash Zval Value) (key : Zval) :
    head.find (installedHandlers zendHash).hash (installedHandlers zendHash).compare key =
      hashFindZval zendHash head key := rfl

@[simp] theorem add_installed (head : UtHash Zval Value) (key : Zval) (value : Value) :
    head.add (installedHandlers zendHash).hash key value =
      hashAddZval zendHash head key value := rfl

/-- A table can tell a key from the keys it has: the class of the key has a hash handler,
unless there is nothing to search, and, when its comparison is Zend's, the bucket the
search goes through has no other value. -/
structure Distinguished (zendHash : List UInt8 → BitVec 32) (head : UtHash Zval Value)
    (key : Zval) : Prop where
  hashed : head.elements ≠ [] → (valueHash zendHash key).isSome
  apart : key.inheritsCompare → ∀ hashv, valueHash zendHash key = some hashv →
    ∀ handle ∈ head.handles,
      utBucket handle.hashv head.table.log2NumBuckets =
        utBucket hashv head.table.log2NumBuckets →
      handle.key.meaning = key.meaning

theorem zType_of_isPlain {type : CassType} (plain : type.isPlain) {key : Zval}
    (accepted : validateObject key type = .accepted) : key.zType ≠ 8 := by
  cases key with
  | null => decide
  | scalar value =>
      obtain ⟨scalarType, rfl, holds⟩ := (validateObject_scalar_iff value type).mp accepted
      intro object
      cases scalarType.instance_of holds with
      | boolean value => cases value <;> cases object
      | _ => first | (cases object; done) | cases plain
  | foreign => exact absurd accepted (validateObject_foreign type)
  | _ => cases type with
    | scalar scalarType => simp [validateObject] at accepted
    | _ => cases plain

theorem valueHash_of_plain {key : Zval} (plain : key.zType ≠ 8) :
    (valueHash zendHash key).isSome := by
  cases key with
  | scalar value => cases value <;> first | exact absurd rfl plain | rfl
  | null => rfl
  | _ => exact absurd rfl plain

/-- Null, strings, integers, doubles and booleans have a hash and a comparison. -/
theorem Distinguished.of_plain {head : UtHash Zval Value} {key : Zval}
    (plain : key.zType ≠ 8) : Distinguished zendHash head key where
  hashed := fun _ => valueHash_of_plain plain
  apart := by
    intro inherits
    cases key with
    | scalar value => cases value <;> first | exact absurd rfl plain | cases inherits
    | null => cases inherits
    | _ => exact absurd rfl plain

theorem Distinguished.finds {head : UtHash Zval Value} {key : Zval}
    (distinguished : Distinguished zendHash head key)
    (consistent : UtHash.Consistent (valueHash zendHash) head) :
    UtHash.Finds (valueHash zendHash) valueCompare Zval.meaning head key where
  hashed := distinguished.hashed
  hash_eq := fun _ _ same => valueHash_congr same
  compared := by
    intro handle member hashv hashed sameBucket
    apply @valueCompare_cases zendHash
    · rw [consistent.hashed handle member]
      rfl
    · rw [hashed]
      rfl
    · intro inherits
      exact distinguished.apart inherits hashv hashed handle member sameBucket

end PhpDriver
