import Mathlib.Data.List.TakeWhile
import PhpDriver.Util.TwosComplement
import PhpDriver.Util.Validate

namespace PhpDriver

open Data

/-! The encoders of `util/collections.c`. What a `cass_*` call hands over is kept as the
kind of the call with its payload. -/

inductive CassScalar where
  | string (bytes : List UInt8)
  | int64 (value : BitVec 64)
  | int32 (value : BitVec 32)
  | int16 (value : BitVec 16)
  | int8 (value : BitVec 8)
  | uint32 (value : BitVec 32)
  | bytes (bytes : List UInt8)
  | bool (value : Bool)
  | double (bits : BitVec 64)
  | float (bits : BitVec 32)
  | uuid (timeAndVersion clockSeqAndNode : BitVec 64)
  | decimal (varint : List UInt8) (scale : BitVec 32)
  | duration (months days : BitVec 32) (nanos : BitVec 64)
  | inet (address : List UInt8)
deriving DecidableEq

/-- The content of a `CassCollection`, in which keys and values of a map alternate, of a
`CassTuple`, and of a `CassUserType`, with the names of its data type. -/
inductive CassItem where
  | null
  | scalar (content : CassScalar)
  | collection (items : List CassItem)
  | tuple (items : List CassItem)
  | userType (fields : List (List UInt8 × CassItem))

def CassItem.isNull : CassItem → Bool
  | .null => true
  | _ => false

/-- The three functions that encode a value by its type: `php_driver_collection_append`,
`php_driver_tuple_set` and `php_driver_user_type_set`. -/
inductive Position where
  | element
  | tupleField
  | userTypeField
deriving DecidableEq

/-- The first two hand a string over with its length, the last one up to its end. -/
def Position.string : Position → List UInt8 → List UInt8
  | .element, bytes => bytes
  | .tupleField, bytes => bytes
  | .userTypeField, bytes => cString bytes

/-- `none` stands for undefined behaviour here, and below for a call that fails, too. -/
def nullItem : Position → CassType → Option CassItem
  -- whatever is not true is false
  | .element, .scalar .boolean => some (.scalar (.bool false))
  | .element, _ => none
  | .tupleField, _ => some .null
  | .userTypeField, _ => some .null

/-- The bytes that a key of a table starts with, a `zend_string` to which only the table
refers: the reference count, in little-endian order. -/
def keyHeader : List UInt8 := [1, 0, 0, 0]

/-- What the loop over the fields of a user type value reads where it expects their names:
the macro stores a `zend_string *` in its `char *name`. -/
def fieldName : List UInt8 := cString keyHeader

variable (gmp : Gmp)

def encodeScalar (position : Position) : ScalarType → Scalar → Option CassScalar
  | .text, .string bytes | .ascii, .string bytes | .varchar, .string bytes =>
      some (.string (position.string bytes))
  | .bigint, .bigint value | .counter, .bigint value => some (.int64 value)
  | .smallint, .smallint value => some (.int16 value)
  | .tinyint, .tinyint value => some (.int8 value)
  | .blob, .blob bytes => some (.bytes bytes)
  | .boolean, .bool value => some (.bool value)
  | .double, .double bits => some (.double bits)
  | .float, .float bits => some (.float bits)
  | .int, .long value => some (.int32 (value.setWidth 32))
  | .timestamp, .timestamp value => some (.int64 value)
  | .date, .date value => some (.uint32 value)
  | .time, .time value => some (.int64 value)
  | .uuid, .uuid timeAndVersion clockSeqAndNode
  | .timeuuid, .timeuuid timeAndVersion clockSeqAndNode =>
      some (.uuid timeAndVersion clockSeqAndNode)
  | .varint, .varint value => some (.bytes (exportTwosComplement gmp value))
  | .decimal, .decimal value =>
      some (.decimal (exportTwosComplement gmp value.value) (value.scale.setWidth 32))
  | .duration, .duration months days nanos => some (.duration months days nanos)
  | .inet, .inet address => some (.inet address)
  | _, _ => none

mutual

def encodeValue (position : Position) : CassType → Zval → Option CassItem
  | type, .null => nullItem position type
  | .scalar type, .scalar value => (encodeScalar gmp position type value).map .scalar
  | .list _, .collection valueType values =>
      (appendValues valueType values).map .collection
  | .map _ _, .map keyType valueType entries =>
      (appendEntries keyType valueType entries).map .collection
  | .set _, .set valueType values => (appendValues valueType values).map .collection
  | .tuple _, .tuple types values =>
      (setFields types (List.replicate types.length .null) values).map .tuple
  | .userType _, .userTypeValue types values =>
      (setFieldsByName types (types.map fun field => (field.1, .null)) values).map .userType
  | _, _ => none

def appendValues (valueType : CassType) : List Zval → Option (List CassItem)
  | [] => some []
  | value :: values => do
      let item ← encodeValue .element valueType value
      let items ← appendValues valueType values
      some (item :: items)

def appendEntries (keyType valueType : CassType) : List (Zval × Zval) → Option (List CassItem)
  | [] => some []
  | (key, value) :: entries => do
      let keyItem ← encodeValue .element keyType key
      let item ← encodeValue .element valueType value
      let items ← appendEntries keyType valueType entries
      some (keyItem :: item :: items)

def setFields (types : List CassType) (items : List CassItem) :
    List (Nat × Zval) → Option (List CassItem)
  | [] => some items
  | (index, value) :: values => do
      let type ← types[index]?
      match validateObject value type with
      | .accepted =>
          let item ← encodeValue .tupleField type value
          setFields types (items.set index item) values
      | _ => none

def setFieldsByName (types : List (List UInt8 × CassType))
    (fields : OrderedMap (List UInt8) CassItem) :
    List (List UInt8 × Zval) → Option (OrderedMap (List UInt8) CassItem)
  | [] => some fields
  | (_, value) :: values => do
      let type ← OrderedMap.get types fieldName
      match validateObject value type with
      | .accepted =>
          let item ← encodeValue .userTypeField type value
          setFieldsByName types (OrderedMap.set fields fieldName item) values
      | _ => none

end

def collectionAppend (type : CassType) (value : Zval) : Option CassItem :=
  encodeValue gmp .element type value

def tupleSet (type : CassType) (value : Zval) : Option CassItem :=
  encodeValue gmp .tupleField type value

def userTypeSet (type : CassType) (value : Zval) : Option CassItem :=
  encodeValue gmp .userTypeField type value

def collectionFromSet (valueType : CassType) (values : List Zval) : Option CassItem :=
  (appendValues gmp valueType values).map .collection

def collectionFromCollection (valueType : CassType) (values : List Zval) : Option CassItem :=
  (appendValues gmp valueType values).map .collection

def collectionFromMap (keyType valueType : CassType) (entries : List (Zval × Zval)) :
    Option CassItem :=
  (appendEntries gmp keyType valueType entries).map .collection

def tupleFromTuple (types : List CassType) (values : List (Nat × Zval)) : Option CassItem :=
  (setFields gmp types (List.replicate types.length .null) values).map .tuple

def userTypeFromUserTypeValue (types : List (List UInt8 × CassType))
    (values : List (List UInt8 × Zval)) : Option CassItem :=
  (setFieldsByName gmp types (types.map fun field => (field.1, .null)) values).map .userType

end PhpDriver
