import PhpDriver.Map.Object
import PhpDriver.Set.Object
import PhpDriver.Util.Encode

namespace PhpDriver

open Data

/-! `php_driver_value` of `util/result.c`: the value of some content under a type. `none`
stands for a failure and for undefined behaviour. -/

variable (gmp : Gmp) (zendHash : List UInt8 → BitVec 32)

def decodeScalar : ScalarType → CassScalar → Option Scalar
  | .ascii, .string bytes | .text, .string bytes | .varchar, .string bytes =>
      some (.string bytes)
  | .int, .int32 value => some (.long (value.signExtend 64))
  | .counter, .int64 value | .bigint, .int64 value => some (.bigint value)
  | .smallint, .int16 value => some (.smallint value)
  | .tinyint, .int8 value => some (.tinyint value)
  | .timestamp, .int64 value => some (.timestamp value)
  | .date, .uint32 value => some (.date value)
  | .time, .int64 value => some (.time value)
  | .blob, .bytes bytes => some (.blob bytes)
  | .varint, .bytes bytes => (importTwosComplement gmp bytes).map .varint
  | .uuid, .uuid timeAndVersion clockSeqAndNode =>
      some (.uuid timeAndVersion clockSeqAndNode)
  | .timeuuid, .uuid timeAndVersion clockSeqAndNode =>
      some (.timeuuid timeAndVersion clockSeqAndNode)
  | .boolean, .bool value => some (.bool value)
  | .inet, .inet address => some (.inet address)
  | .decimal, .decimal varint scale =>
      (importTwosComplement gmp varint).map fun value =>
        .decimal { value, scale := scale.signExtend 64 }
  | .duration, .duration months days nanos => some (.duration months days nanos)
  | .double, .double bits => some (.double bits)
  | .float, .float bits => some (.float bits)
  | _, _ => none

/-- The answers of `php_driver_set_add` and `php_driver_map_set` are not looked at. -/
def addValues (set : PhpSet) (values : List Zval) : Option PhpSet :=
  values.foldlM (fun set value => (setAdd zendHash set value).map Prod.fst) set

def setEntries (map : PhpMap) (entries : List (Zval × Zval)) : Option PhpMap :=
  entries.foldlM (fun map entry => (mapSet zendHash map entry.1 entry.2).map Prod.fst) map

mutual

def decodeValue : CassType → CassItem → Option Zval
  | _, .null => some .null
  | .custom _, _ => some .null
  | .scalar type, .scalar content => (decodeScalar gmp type content).map .scalar
  | .list valueType, .collection items =>
      (decodeValues valueType items).map (.collection valueType)
  | .map keyType valueType, .collection items => do
      let entries ← decodeEntries keyType valueType items
      let map ← setEntries zendHash { keyType, valueType } entries
      some map.toZval
  | .set valueType, .collection items => do
      let values ← decodeValues valueType items
      let set ← addValues zendHash { valueType } values
      some set.toZval
  | .tuple types, .tuple items => (decodeFields types 0 items).map (.tuple types)
  | .userType types, .userType fields =>
      (decodeFieldsByName types fields).map (.userTypeValue types)
  | _, _ => none

def decodeValues (valueType : CassType) : List CassItem → Option (List Zval)
  | [] => some []
  | item :: items => do
      let value ← decodeValue valueType item
      let values ← decodeValues valueType items
      some (value :: values)

def decodeEntries (keyType valueType : CassType) : List CassItem → Option (List (Zval × Zval))
  | [] => some []
  | [_] => none
  | keyItem :: item :: items => do
      let key ← decodeValue keyType keyItem
      let value ← decodeValue valueType item
      let entries ← decodeEntries keyType valueType items
      some ((key, value) :: entries)

/-- A null leaves its field unset, also behind the last type. Every index comes once. -/
def decodeFields : List CassType → Nat → List CassItem → Option (List (Nat × Zval))
  | _, _, [] => some []
  | types, index, .null :: items => decodeFields types.tail (index + 1) items
  | [], _, _ :: _ => none
  | type :: types, index, item :: items => do
      let value ← decodeValue type item
      let values ← decodeFields types (index + 1) items
      some ((index, value) :: values)

def decodeFieldsByName : List (List UInt8 × CassType) → List (List UInt8 × CassItem) →
    Option (List (List UInt8 × Zval))
  | _, [] => some []
  | types, (_, .null) :: fields => decodeFieldsByName types.tail fields
  | [], _ :: _ => none
  | (name, type) :: types, (_, item) :: fields => do
      let value ← decodeValue type item
      let values ← decodeFieldsByName types fields
      some ((name, value) :: values)

end

end PhpDriver
