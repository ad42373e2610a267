import PhpDriver.Data.Ieee
import PhpDriver.Data.OrderedMap
import PhpDriver.Types
import PhpDriver.Util.DecimalParse

namespace PhpDriver

open Data

/-! The PHP values a Cassandra value is given as. Integers, doubles and bytes are kept
as the machine words they are. -/

inductive Scalar where
  | string (bytes : List UInt8)
  | long (value : BitVec 64)
  | double (bits : BitVec 64)
  | bool (value : Bool)
  | bigint (value : BitVec 64)
  | smallint (value : BitVec 16)
  | tinyint (value : BitVec 8)
  | float (bits : BitVec 32)
  | varint (value : Int)
  | decimal (value : Decimal)
  | blob (bytes : List UInt8)
  | timestamp (value : BitVec 64)
  | date (value : BitVec 32)
  | time (value : BitVec 64)
  | uuid (timeAndVersion clockSeqAndNode : BitVec 64)
  | timeuuid (timeAndVersion clockSeqAndNode : BitVec 64)
  | inet (address : List UInt8)
  | duration (months days : BitVec 32) (nanos : BitVec 64)
deriving DecidableEq

/-- A set or a map lists its elements in the order of its iterator. The values of a
tuple and of a user type value are a hash table each, by index and by name. -/
inductive Zval where
  | null
  | scalar (value : Scalar)
  | collection (valueType : CassType) (values : List Zval)
  | set (valueType : CassType) (values : List Zval)
  | map (keyType valueType : CassType) (entries : List (Zval × Zval))
  | tuple (types : List CassType) (values : List (Nat × Zval))
  | userTypeValue (types : List (List UInt8 × CassType)) (values : List (List UInt8 × Zval))
  /-- Anything else: an array, a resource, an object of another class. -/
  | foreign

def Zval.isNull : Zval → Bool
  | .null => true
  | _ => false

/-! The Cassandra values they stand for. All NaNs are one value, a field that is not
set is null, and the type an element was declared with is forgotten. -/

inductive CassValue where
  | null
  | scalar (value : Scalar)
  | list (values : List CassValue)
  | set (values : List CassValue)
  | map (entries : List (CassValue × CassValue))
  | tuple (fields : List CassValue)
  | userType (fields : List (List UInt8 × CassValue))
  | foreign

noncomputable instance : DecidableEq CassValue :=
  Classical.decEq CassValue

def doubleFraction : Nat := 52

def floatFraction : Nat := 23

def Scalar.normal : Scalar → Scalar
  | .double bits => .double (Ieee.canonical doubleFraction 0x7ff8000000000000 bits)
  | .float bits => .float (Ieee.canonical floatFraction 0x7fc00000 bits)
  | value => value

/-- The value of a field, null when it is not there. -/
def CassValue.field [DecidableEq Key] (fields : List (Key × CassValue)) (key : Key) :
    CassValue :=
  (OrderedMap.get fields key).getD .null

namespace Zval

mutual

def meaning : Zval → CassValue
  | .null => .null
  | .scalar value => .scalar value.normal
  | .collection _ values => .list (meanings values)
  | .set _ values => .set (meanings values)
  | .map _ _ entries => .map (entryMeanings entries)
  | .tuple types values =>
      .tuple ((List.range types.length).map (CassValue.field (indexedMeanings values)))
  | .userTypeValue types values =>
      .userType (types.map fun field =>
        (field.1, CassValue.field (namedMeanings values) field.1))
  | .foreign => .foreign

def meanings : List Zval → List CassValue
  | [] => []
  | value :: values => meaning value :: meanings values

def entryMeanings : List (Zval × Zval) → List (CassValue × CassValue)
  | [] => []
  | (key, value) :: entries => (meaning key, meaning value) :: entryMeanings entries

def indexedMeanings : List (Nat × Zval) → List (Nat × CassValue)
  | [] => []
  | (index, value) :: values => (index, meaning value) :: indexedMeanings values

def namedMeanings : List (List UInt8 × Zval) → List (List UInt8 × CassValue)
  | [] => []
  | (name, value) :: values => (name, meaning value) :: namedMeanings values

end

theorem meanings_eq_map (values : List Zval) : meanings values = values.map meaning := by
  induction values with
  | nil => rfl
  | cons value values ih => rw [meanings, ih, List.map_cons]

theorem entryMeanings_eq_map (entries : List (Zval × Zval)) :
    entryMeanings entries = entries.map fun entry => (entry.1.meaning, entry.2.meaning) := by
  induction entries with
  | nil => rfl
  | cons entry entries ih => rw [entryMeanings, ih, List.map_cons]

theorem indexedMeanings_eq_map (values : List (Nat × Zval)) :
    indexedMeanings values = values.map fun field => (field.1, field.2.meaning) := by
  induction values with
  | nil => rfl
  | cons field values ih => rw [indexedMeanings, ih, List.map_cons]

theorem namedMeanings_eq_map (values : List (List UInt8 × Zval)) :
    namedMeanings values = values.map fun field => (field.1, field.2.meaning) := by
  induction values with
  | nil => rfl
  | cons field values ih => rw [namedMeanings, ih, List.map_cons]

theorem isNull_iff (value : Zval) : value.isNull ↔ value = .null := by
  cases value <;> simp [Zval.isNull]

theorem meaning_eq_null_iff (value : Zval) : value.meaning = .null ↔ value.isNull := by
  cases value <;> simp [meaning, isNull]

end Zval

end PhpDriver
