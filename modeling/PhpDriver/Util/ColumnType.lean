import PhpDriver.Data.OrderedMap
import PhpDriver.Types
import PhpDriver.Util.ClassTree
import PhpDriver.Util.DecimalParse

namespace PhpDriver

open Data

/-! `php_driver_parse_column_type` of `util/types.c`. A pointer to a node is the node as a tree
together with its next siblings, and `NULL` is the empty list. -/

/-- A type object, or a `zval` that is not defined. A `char *` is the string it points to. -/
inductive ColumnType where
  | undef
  | scalar (type : ScalarType)
  | custom (className : List UInt8)
  | list (valueType : ColumnType)
  | map (keyType valueType : ColumnType)
  | set (valueType : ColumnType)
  | tuple (types : List ColumnType)
  | userType (keyspace typeName : Option (List UInt8)) (types : List (List UInt8 × ColumnType))

def ColumnType.isUndef : ColumnType → Bool
  | .undef => true
  | _ => false

def hexValue (c : UInt8) : Option Nat :=
  if 48 ≤ c.toNat && c.toNat ≤ 57 then some (c.toNat - 48)
  else if 65 ≤ c.toNat && c.toNat ≤ 70 then some (c.toNat - 65 + 10)
  else if 97 ≤ c.toNat && c.toNat ≤ 102 then some (c.toNat - 97 + 10)
  else none

/-- The bytes in front of the terminator, or `NULL`. -/
def fromHex : List UInt8 → Option (List UInt8)
  | [] => some []
  | [_] => none
  | first :: second :: rest =>
      match hexValue first, hexValue second, fromHex rest with
      | some half0, some half1, some result => some (UInt8.ofNat (16 * half0 + half1) :: result)
      | _, _, _ => none

def marshal (name : String) : List UInt8 :=
  ascii "org.apache.cassandra.db.marshal." ++ ascii name

/-- `strncmp(full, node->name, node->name_length) == 0`. -/
def startsWith (full name : List UInt8) : Bool :=
  full.take name.length == name

inductive ColumnClass where
  | scalar (type : ScalarType)
  | map
  | set
  | list
  | tuple
  | userType
  | custom
deriving DecidableEq

def columnClasses : List (String × ColumnClass) :=
  [("AsciiType", .scalar .ascii), ("LongType", .scalar .bigint), ("ShortType", .scalar .smallint),
    ("ByteType", .scalar .tinyint), ("BytesType", .scalar .blob),
    ("BooleanType", .scalar .boolean), ("CounterColumnType", .scalar .counter),
    ("DecimalType", .scalar .decimal), ("DurationType", .scalar .duration),
    ("DoubleType", .scalar .double), ("FloatType", .scalar .float),
    ("InetAddressType", .scalar .inet), ("Int32Type", .scalar .int),
    ("UTF8Type", .scalar .varchar), ("TimestampType", .scalar .timestamp),
    ("DateType", .scalar .timestamp), ("SimpleDateType", .scalar .date),
    ("TimeType", .scalar .time), ("UUIDType", .scalar .uuid), ("IntegerType", .scalar .varint),
    ("TimeUUIDType", .scalar .timeuuid), ("MapType", .map), ("SetType", .set),
    ("ListType", .list), ("TupleType", .tuple), ("UserType", .userType)]

def lookupType (name : List UInt8) : ColumnClass :=
  match columnClasses.find? fun entry => startsWith (marshal entry.1) name with
  | some (_, value) => value
  | none => .custom

def isReversed (name : List UInt8) : Bool :=
  startsWith (marshal "ReversedType") name

def isFrozen (name : List UInt8) : Bool :=
  startsWith (marshal "FrozenType") name

def isComposite (name : List UInt8) : Bool :=
  startsWith (marshal "CompositeType") name

def isWrapper (name : List UInt8) : Bool :=
  isFrozen name || isReversed name || isComposite name

mutual

/-- A node without its next siblings. -/
def nodeDump : ClassTree → List UInt8
  | .node name children =>
      name ++ if children.isEmpty then [] else ascii "(" ++ nodeDumpTo children ++ ascii ")"

def nodeDumpTo : List ClassTree → List UInt8
  | [] => []
  | node :: siblings =>
      nodeDump node ++ if siblings.isEmpty then [] else ascii ", " ++ nodeDumpTo siblings

end

/-- `php_driver_type_user_type_add`, which keeps the field that a name has already. -/
def userTypeAdd (types : OrderedMap (List UInt8) ColumnType) (name : List UInt8)
    (type : ColumnType) : OrderedMap (List UInt8) ColumnType :=
  if name ∈ types.keys then types else types ++ [(name, type)]

mutual

/-- The type of a node, or nothing where the code reads through a `NULL` or an undefined
type. -/
def createType : ClassTree → List ClassTree → Option ColumnType
  | .node name children, siblings =>
      if isWrapper name then
        match children with
        | [] => some .undef
        | child :: others => createType child others
      else
        match lookupType name with
        | .custom => some (.custom (nodeDumpTo (.node name children :: siblings)))
        | .map =>
            match children with
            | [] => some (.map .undef .undef)
            | [key] => (createType key []).map fun key => .map key .undef
            | key :: value :: others =>
                match createType key (value :: others), createType value others with
                | some key, some value => some (.map key value)
                | _, _ => none
        | .list =>
            match children with
            | [] => some (.list .undef)
            | value :: others => (createType value others).map .list
        | .set =>
            match children with
            | [] => some (.set .undef)
            | value :: others => (createType value others).map .set
        | .tuple => (tupleFromNode children).map .tuple
        | .userType =>
            match children with
            | [] => some (.userType none none [])
            | [keyspace] => some (.userType (some keyspace.name) none [])
            | keyspace :: typeName :: fields =>
                (userTypeFromNode [] fields).map
                  (.userType (some keyspace.name) ((fromHex typeName.name).map cString))
        | .scalar type => some (.scalar type)

def tupleFromNode : List ClassTree → Option (List ColumnType)
  | [] => some []
  | current :: others =>
      match createType current others, tupleFromNode others with
      | some type, some types => if type.isUndef then none else some (type :: types)
      | _, _ => none

def userTypeFromNode (types : OrderedMap (List UInt8) ColumnType) :
    List ClassTree → Option (OrderedMap (List UInt8) ColumnType)
  | [] => some types
  | [_] => some types
  | name :: current :: others =>
      match fromHex name.name, createType current others with
      | some name, some type =>
          if type.isUndef then none
          else userTypeFromNode (userTypeAdd types (cString name) type) others
      | _, _ => none

end

def nodesFrom (nodes : List ParseNode) : Nat → Option Nat → List ClassTree
  | 0, _ => []
  | _ + 1, none => []
  | fuel + 1, some node =>
      let node := nodes.getD node {}
      .node (node.name.getD []) (nodesFrom nodes fuel node.firstChild) ::
        nodesFrom nodes fuel node.nextSibling

inductive ColumnResult where
  | success (reversed frozen : Bool) (type : ColumnType)
  | failure (error : ParseError)
  /-- `Invalid type`. -/
  | invalidType
  | undefined

def columnType (reversed frozen : Bool) : ClassTree → List ClassTree → ColumnResult
  | .node name children, siblings =>
      if isReversed name then
        match children with
        | [] => .invalidType
        | child :: others => columnType true frozen child others
      else if isFrozen name then
        match children with
        | [] => .invalidType
        | child :: others => columnType reversed true child others
      else if isComposite name then
        match children with
        | [] => .invalidType
        | child :: others => columnType reversed frozen child others
      else
        match createType (.node name children) siblings with
        | some type => .success reversed frozen type
        | none => .undefined

def parseColumnType (validator : List UInt8) : ColumnResult :=
  match parseClassName validator with
  | .success nodes =>
      match nodesFrom nodes nodes.length (some 0) with
      | [] => .invalidType
      | root :: siblings => columnType false false root siblings
  | .failure error => .failure error
  | .nullDereference => .undefined

end PhpDriver
