import PhpDriver.Util.ColumnType

namespace PhpDriver

open Data

/-! The type objects as PHP holds them. Each keeps, beside the types it shows, a data type of
the driver, which the driver is given when a value is bound. -/

inductive DataType where
  | simple (type : ScalarType)
  | custom (className : List UInt8)
  | list (types : List DataType)
  | map (types : List DataType)
  | set (types : List DataType)
  | tuple (types : List DataType)
  | userType (keyspace typeName : List UInt8) (types : List (List UInt8 × DataType))

/-- The driver is outside of the repository. Of its calls that put a type into a data type, the
repository relies on what is documented: a list and a set take one type, a map takes two, and a
tuple and a user type take any number, the latter by name. -/
class DataTypeCalls where
  /-- `cass_data_type_add_sub_type`, or an error, which changes nothing. -/
  addSubType : DataType → DataType → Option DataType
  /-- `cass_data_type_add_sub_type_by_name_n`. A name may come again. -/
  addSubTypeByName : DataType → List UInt8 → DataType → Option DataType
  addSubType_list : ∀ subType, addSubType (.list []) subType = some (.list [subType])
  addSubType_map : ∀ types subType, types.length < 2 →
    addSubType (.map types) subType = some (.map (types ++ [subType]))
  addSubType_set : ∀ subType, addSubType (.set []) subType = some (.set [subType])
  addSubType_tuple : ∀ types subType,
    addSubType (.tuple types) subType = some (.tuple (types ++ [subType]))
  addSubTypeByName_userType : ∀ keyspace typeName types name subType,
    addSubTypeByName (.userType keyspace typeName types) name subType =
      some (.userType keyspace typeName (types ++ [(name, subType)]))

/-- An executable instance, which gives an error for what the others do not say. -/
@[reducible]
def DataTypeCalls.reference : DataTypeCalls where
  addSubType
    | .list [], subType => some (.list [subType])
    | .map types, subType =>
        if types.length < 2 then some (.map (types ++ [subType])) else none
    | .set [], subType => some (.set [subType])
    | .tuple types, subType => some (.tuple (types ++ [subType]))
    | _, _ => none
  addSubTypeByName
    | .userType keyspace typeName types, name, subType =>
        some (.userType keyspace typeName (types ++ [(name, subType)]))
    | _, _, _ => none
  addSubType_list _ := rfl
  addSubType_map _ _ room := if_pos room
  addSubType_set _ := rfl
  addSubType_tuple _ _ := rfl
  addSubTypeByName_userType _ _ _ _ _ := rfl

/-- A `php_driver_type` with its `data_type`, or a `zval` that is not defined. -/
inductive TypeObject where
  | undef
  | scalar (dataType : DataType) (type : ScalarType)
  | custom (dataType : DataType) (className : List UInt8)
  | list (dataType : DataType) (valueType : TypeObject)
  | map (dataType : DataType) (keyType valueType : TypeObject)
  | set (dataType : DataType) (valueType : TypeObject)
  | tuple (dataType : DataType) (types : List TypeObject)
  | userType (dataType : DataType) (keyspace typeName : Option (List UInt8))
      (types : List (List UInt8 × TypeObject))

namespace TypeObject

def dataType : TypeObject → Option DataType
  | .undef => none
  | .scalar dataType _ => some dataType
  | .custom dataType _ => some dataType
  | .list dataType _ => some dataType
  | .map dataType _ _ => some dataType
  | .set dataType _ => some dataType
  | .tuple dataType _ => some dataType
  | .userType dataType _ _ _ => some dataType

mutual

def type : TypeObject → ColumnType
  | .undef => .undef
  | .scalar _ type => .scalar type
  | .custom _ className => .custom className
  | .list _ valueType => .list valueType.type
  | .map _ keyType valueType => .map keyType.type valueType.type
  | .set _ valueType => .set valueType.type
  | .tuple _ elements => .tuple (types elements)
  | .userType _ keyspace typeName fields => .userType keyspace typeName (fieldTypes fields)

def types : List TypeObject → List ColumnType
  | [] => []
  | object :: objects => object.type :: types objects

def fieldTypes : List (List UInt8 × TypeObject) → List (List UInt8 × ColumnType)
  | [] => []
  | (name, object) :: fields => (name, object.type) :: fieldTypes fields

end

end TypeObject

/-! How they are made. An error of the driver is not looked at, except in `Type::tuple` and
`Type::userType`. -/

variable [DataTypeCalls]

def typeScalar (type : ScalarType) : TypeObject :=
  .scalar (.simple type) type

/-- `php_driver_type_custom`, which leaves the class name out of the data type. -/
def typeCustom (className : List UInt8) : TypeObject :=
  .custom (.custom []) className

def withSubType (dataType : DataType) (subType : TypeObject) : DataType :=
  match subType.dataType with
  | none => dataType
  | some subType => (DataTypeCalls.addSubType dataType subType).getD dataType

def typeCollection (valueType : TypeObject) : TypeObject :=
  .list (withSubType (.list []) valueType) valueType

def typeMap (keyType valueType : TypeObject) : TypeObject :=
  .map (withSubType (withSubType (.map []) keyType) valueType) keyType valueType

def typeSet (valueType : TypeObject) : TypeObject :=
  .set (withSubType (.set []) valueType) valueType

def typeTuple : TypeObject :=
  .tuple (.tuple []) []

def typeUserType : TypeObject :=
  .userType (.userType [] [] []) none none []

/-- `php_driver_type_tuple_add` with what it returns, or undefined behaviour. -/
def typeTupleAdd : TypeObject → TypeObject → Option (TypeObject × Bool)
  | .tuple dataType types, subType =>
      subType.dataType.map fun added =>
        match DataTypeCalls.addSubType dataType added with
        | none => (.tuple dataType types, false)
        | some dataType => (.tuple dataType (types ++ [subType]), true)
  | _, _ => none

/-- `php_driver_type_user_type_add`. The driver gets the field, and the table of PHP keeps the
one it has. -/
def typeUserTypeAdd : TypeObject → List UInt8 → TypeObject → Option (TypeObject × Bool)
  | .userType dataType keyspace typeName types, name, subType =>
      subType.dataType.map fun added =>
        match DataTypeCalls.addSubTypeByName dataType name added with
        | none => (.userType dataType keyspace typeName types, false)
        | some dataType =>
            (.userType dataType keyspace typeName (OrderedMap.add types name subType), true)
  | _, _, _ => none

mutual

/-- `php_driver_type_from_data_type`, or undefined behaviour. -/
def typeFromDataType : DataType → Option TypeObject
  | .simple type => some (typeScalar type)
  | .custom className => some (typeCustom (cString className))
  | .list types =>
      match types with
      | [] => none
      | valueType :: _ => (typeFromDataType valueType).map typeCollection
  | .map types =>
      match types with
      | keyType :: valueType :: _ =>
          match typeFromDataType keyType, typeFromDataType valueType with
          | some keyType, some valueType => some (typeMap keyType valueType)
          | _, _ => none
      | _ => none
  | .set types =>
      match types with
      | [] => none
      | valueType :: _ => (typeFromDataType valueType).map typeSet
  | .tuple types => tupleFromDataType typeTuple types
  | .userType keyspace typeName types =>
      userTypeFromDataType (.userType (.userType [] [] []) (some (cString keyspace))
        (some (cString typeName)) []) types

def tupleFromDataType (tuple : TypeObject) : List DataType → Option TypeObject
  | [] => some tuple
  | dataType :: dataTypes =>
      match typeFromDataType dataType with
      | none => none
      | some subType =>
          match typeTupleAdd tuple subType with
          | none => none
          | some (tuple, _) => tupleFromDataType tuple dataTypes

def userTypeFromDataType (userType : TypeObject) :
    List (List UInt8 × DataType) → Option TypeObject
  | [] => some userType
  | (name, dataType) :: fields =>
      match typeFromDataType dataType with
      | none => none
      | some subType =>
          match typeUserTypeAdd userType name subType with
          | none => none
          | some (userType, _) => userTypeFromDataType userType fields

end

mutual

def createTypeObject : ClassTree → List ClassTree → Option TypeObject
  | .node name children, siblings =>
      if isWrapper name then
        match children with
        | [] => some .undef
        | child :: others => createTypeObject child others
      else
        match lookupType name with
        | .custom => some (typeCustom (nodeDumpTo (.node name children :: siblings)))
        | .map =>
            match children with
            | [] => some (typeMap .undef .undef)
            | [key] => (createTypeObject key []).map fun key => typeMap key .undef
            | key :: value :: others =>
                match createTypeObject key (value :: others), createTypeObject value others with
                | some key, some value => some (typeMap key value)
                | _, _ => none
        | .list =>
            match children with
            | [] => some (typeCollection .undef)
            | value :: others => (createTypeObject value others).map typeCollection
        | .set =>
            match children with
            | [] => some (typeSet .undef)
            | value :: others => (createTypeObject value others).map typeSet
        | .tuple => tupleObjectFromNode typeTuple children
        | .userType =>
            match children with
            | [] => some typeUserType
            | [keyspace] =>
                some (.userType (.userType [] [] []) (some keyspace.name) none [])
            | keyspace :: typeName :: fields =>
                userTypeObjectFromNode (.userType (.userType [] [] []) (some keyspace.name)
                  ((fromHex typeName.name).map cString) []) fields
        | .scalar type => some (typeScalar type)

def tupleObjectFromNode (tuple : TypeObject) : List ClassTree → Option TypeObject
  | [] => some tuple
  | current :: others =>
      match createTypeObject current others with
      | none => none
      | some subType =>
          match typeTupleAdd tuple subType with
          | none => none
          | some (tuple, _) => tupleObjectFromNode tuple others

def userTypeObjectFromNode (userType : TypeObject) : List ClassTree → Option TypeObject
  | [] => some userType
  | [_] => some userType
  | name :: current :: others =>
      match fromHex name.name, createTypeObject current others with
      | some name, some subType =>
          match typeUserTypeAdd userType (cString name) subType with
          | none => none
          | some (userType, _) => userTypeObjectFromNode userType others
      | _, _ => none

end

/-! The methods of `Type` and of `Type\UserType` that make types of types. -/

def TypeObject.validate : TypeObject → Bool
  | .undef => false
  | .custom _ _ => false
  | _ => true

/-- The loop of `Type::tuple`. -/
def tupleOf (tuple : TypeObject) : List TypeObject → Option TypeObject
  | [] => some tuple
  | subType :: subTypes =>
      match typeTupleAdd tuple subType with
      | none => none
      | some (tuple, true) => tupleOf tuple subTypes
      | some (tuple, false) => some tuple

/-- The loop of `Type::userType`. -/
def userTypeOf (userType : TypeObject) : List (List UInt8 × TypeObject) → Option TypeObject
  | [] => some userType
  | (name, subType) :: fields =>
      match typeUserTypeAdd userType name subType with
      | none => none
      | some (userType, true) => userTypeOf userType fields
      | some (userType, false) => some userType

def withName : TypeObject → List UInt8 → Option TypeObject
  | .userType dataType keyspace _ types, name =>
      some (.userType dataType keyspace (some (cString name)) types)
  | _, _ => none

def withKeyspace : TypeObject → List UInt8 → Option TypeObject
  | .userType dataType _ typeName types, keyspace =>
      some (.userType dataType (some (cString keyspace)) typeName types)
  | _, _ => none

namespace TypeObject

/-- The objects that there are: read from the driver, read from validators, or made in PHP. -/
inductive Built : TypeObject → Prop
  | fromDataType {dataType : DataType} {object : TypeObject}
      (made : typeFromDataType dataType = some object) : Built object
  | fromNode {tree : ClassTree} {siblings : List ClassTree} {object : TypeObject}
      (made : createTypeObject tree siblings = some object) : Built object
  | scalar (type : ScalarType) : Built (typeScalar type)
  | collection {valueType : TypeObject} (built : Built valueType)
      (valid : valueType.validate) : Built (typeCollection valueType)
  | map {keyType valueType : TypeObject} (builtKey : Built keyType)
      (validKey : keyType.validate) (built : Built valueType)
      (valid : valueType.validate) : Built (typeMap keyType valueType)
  | set {valueType : TypeObject} (built : Built valueType) (valid : valueType.validate) :
      Built (typeSet valueType)
  | tuple {types : List TypeObject} {object : TypeObject} (built : ∀ type ∈ types, Built type)
      (valid : ∀ type ∈ types, type.validate) (made : tupleOf typeTuple types = some object) :
      Built object
  | userType {fields : List (List UInt8 × TypeObject)} {object : TypeObject}
      (built : ∀ field ∈ fields, Built field.2) (valid : ∀ field ∈ fields, field.2.validate)
      (made : userTypeOf typeUserType fields = some object) : Built object
  | withName {type object : TypeObject} {name : List UInt8} (built : Built type)
      (made : withName type name = some object) : Built object
  | withKeyspace {type object : TypeObject} {keyspace : List UInt8} (built : Built type)
      (made : withKeyspace type keyspace = some object) : Built object

end TypeObject

end PhpDriver
