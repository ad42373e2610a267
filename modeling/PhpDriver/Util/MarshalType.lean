import PhpDriver.Util.ClassAccepted
import PhpDriver.Util.ColumnType

namespace PhpDriver

open Data Punctuation

/-! The types that Cassandra writes as validators, with their wrappers, and the texts it writes
for them. -/

def underscore : UInt8 := 0x5F

def dollar : UInt8 := 0x24

structure KeyspaceName where
  text : List UInt8
  nonempty : text ≠ []
  chars : ∀ ch ∈ text, isalnum ch = true ∨ ch = underscore

structure ClassName where
  text : List UInt8
  nonempty : text ≠ []
  starts : ∀ ch ∈ text.head?, isalnum ch = true
  chars : ∀ ch ∈ text, isletter ch = true ∨ ch = underscore ∨ ch = dollar

inductive MarshalType where
  | scalar (type : ScalarType)
  | custom (className : ClassName)
  | list (valueType : MarshalType)
  | map (keyType valueType : MarshalType)
  | set (valueType : MarshalType)
  | tuple (types : List MarshalType)
  | userType (keyspace : KeyspaceName) (typeName : List UInt8)
      (fields : List (List UInt8 × MarshalType))
  | frozen (type : MarshalType)
  | reversed (type : MarshalType)

def ScalarType.className : ScalarType → String
  | .ascii => "AsciiType"
  | .bigint => "LongType"
  | .blob => "BytesType"
  | .boolean => "BooleanType"
  | .counter => "CounterColumnType"
  | .decimal => "DecimalType"
  | .double => "DoubleType"
  | .float => "FloatType"
  | .int => "Int32Type"
  | .text | .varchar => "UTF8Type"
  | .timestamp => "TimestampType"
  | .uuid => "UUIDType"
  | .varint => "IntegerType"
  | .timeuuid => "TimeUUIDType"
  | .inet => "InetAddressType"
  | .date => "SimpleDateType"
  | .time => "TimeType"
  | .smallint => "ShortType"
  | .tinyint => "ByteType"
  | .duration => "DurationType"

def ScalarType.named : ScalarType → ScalarType
  | .text => .varchar
  | type => type

def hexDigit (half : Nat) : UInt8 :=
  UInt8.ofNat (if half < 10 then 48 + half else 87 + half)

def hex (bytes : List UInt8) : List UInt8 :=
  bytes.flatMap fun byte => [hexDigit (byte.toNat / 16), hexDigit (byte.toNat % 16)]

def applied (name arguments : List UInt8) : List UInt8 :=
  name ++ parenOpen :: (arguments ++ [parenClose])

namespace MarshalType

mutual

def text : MarshalType → List UInt8
  | .scalar type => marshal type.className
  | .custom className => className.text
  | .list valueType => applied (marshal "ListType") valueType.text
  | .map keyType valueType =>
      applied (marshal "MapType") (keyType.text ++ comma :: valueType.text)
  | .set valueType => applied (marshal "SetType") valueType.text
  | .tuple types => applied (marshal "TupleType") (texts types)
  | .userType keyspace typeName fields =>
      applied (marshal "UserType")
        (keyspace.text ++ comma :: (hex typeName ++ fieldTexts fields))
  | .frozen type => applied (marshal "FrozenType") type.text
  | .reversed type => applied (marshal "ReversedType") type.text

def texts : List MarshalType → List UInt8
  | [] => []
  | type :: types => type.text ++ if types.isEmpty then [] else comma :: texts types

def fieldTexts : List (List UInt8 × MarshalType) → List UInt8
  | [] => []
  | (name, type) :: fields => comma :: (hex name ++ colon :: (type.text ++ fieldTexts fields))

end

mutual

def type : MarshalType → ColumnType
  | .scalar type => .scalar type.named
  | .custom className => .custom className.text
  | .list valueType => .list valueType.type
  | .map keyType valueType => .map keyType.type valueType.type
  | .set valueType => .set valueType.type
  | .tuple elements => .tuple (types elements)
  | .userType keyspace typeName fields =>
      .userType (some keyspace.text) (some typeName) (fieldTypes fields)
  | .frozen inner => inner.type
  | .reversed inner => inner.type

def types : List MarshalType → List ColumnType
  | [] => []
  | type :: rest => type.type :: types rest

def fieldTypes : List (List UInt8 × MarshalType) → List (List UInt8 × ColumnType)
  | [] => []
  | (name, type) :: fields => (name, type.type) :: fieldTypes fields

end

def outerReversed : MarshalType → Bool
  | .reversed _ => true
  | .frozen type => type.outerReversed
  | _ => false

def outerFrozen : MarshalType → Bool
  | .frozen _ => true
  | .reversed type => type.outerFrozen
  | _ => false

mutual

def tree : MarshalType → ClassTree
  | .scalar type => .node (marshal type.className) []
  | .custom className => .node className.text []
  | .list valueType => .node (marshal "ListType") [valueType.tree]
  | .map keyType valueType => .node (marshal "MapType") [keyType.tree, valueType.tree]
  | .set valueType => .node (marshal "SetType") [valueType.tree]
  | .tuple types => .node (marshal "TupleType") (trees types)
  | .userType keyspace typeName fields =>
      .node (marshal "UserType")
        (.node keyspace.text [] :: .node (hex typeName) [] :: fieldTrees fields)
  | .frozen type => .node (marshal "FrozenType") [type.tree]
  | .reversed type => .node (marshal "ReversedType") [type.tree]

def trees : List MarshalType → List ClassTree
  | [] => []
  | type :: types => type.tree :: trees types

def fieldTrees : List (List UInt8 × MarshalType) → List ClassTree
  | [] => []
  | (name, type) :: fields => .node (hex name) [] :: type.tree :: fieldTrees fields

end

mutual

def Legible : MarshalType → Prop
  | .scalar _ => True
  | .custom className => underscore ∉ className.text ∧ dollar ∉ className.text
  | .list valueType => valueType.Legible
  | .map keyType valueType => keyType.Legible ∧ valueType.Legible
  | .set valueType => valueType.Legible
  | .tuple types => types ≠ [] ∧ AllLegible types
  | .userType keyspace typeName fields =>
      underscore ∉ keyspace.text ∧ typeName ≠ [] ∧ FieldsLegible fields
  | .frozen type => type.Legible
  | .reversed type => type.Legible

def AllLegible : List MarshalType → Prop
  | [] => True
  | type :: types => type.Legible ∧ AllLegible types

def FieldsLegible : List (List UInt8 × MarshalType) → Prop
  | [] => True
  | (name, type) :: fields => name ≠ [] ∧ type.Legible ∧ FieldsLegible fields

end

def Foreign (name : List UInt8) : Prop :=
  ∀ className ∈ ["FrozenType", "ReversedType", "CompositeType"] ++ columnClasses.map Prod.fst,
    ¬name <+: marshal className

mutual

/-- The nodes say which type it is, where there are siblings after it or not. -/
def Distinct : MarshalType → Bool → Prop
  | .scalar _, _ => True
  | .custom className, last => Foreign className.text ∧ last = true
  | .list valueType, _ => valueType.Distinct true
  | .map keyType valueType, _ => keyType.Distinct false ∧ valueType.Distinct true
  | .set valueType, _ => valueType.Distinct true
  | .tuple types, _ => AllDistinct types
  | .userType _ typeName fields, _ =>
      0 ∉ typeName ∧ (∀ field ∈ fields, 0 ∉ field.1) ∧ (fields.map Prod.fst).Nodup ∧
        FieldsDistinct fields
  | .frozen type, _ => type.Distinct true
  | .reversed type, _ => type.Distinct true

def AllDistinct : List MarshalType → Prop
  | [] => True
  | type :: types => type.Distinct types.isEmpty ∧ AllDistinct types

def FieldsDistinct : List (List UInt8 × MarshalType) → Prop
  | [] => True
  | (_, type) :: fields => type.Distinct fields.isEmpty ∧ FieldsDistinct fields

end

end MarshalType

end PhpDriver
