import PhpDriver.Type.Mirror

namespace PhpDriver

open Data

/-! The object of a type that tells the driver what it shows, in every part of it. -/

namespace ColumnType

section

variable [DataTypeCalls]

mutual

def object : ColumnType → TypeObject
  | .undef => .undef
  | .scalar type => typeScalar type
  | .custom className => .custom (.custom []) className
  | .list valueType => typeCollection valueType.object
  | .map keyType valueType => typeMap keyType.object valueType.object
  | .set valueType => typeSet valueType.object
  | .tuple types => .tuple (.tuple (mirrors types)) (objects types)
  | .userType keyspace typeName fields =>
      .userType (.userType [] [] (mirrorFields fields)) keyspace typeName (fieldObjects fields)

def objects : List ColumnType → List TypeObject
  | [] => []
  | type :: types => type.object :: objects types

def fieldObjects : List (List UInt8 × ColumnType) → List (List UInt8 × TypeObject)
  | [] => []
  | (name, type) :: fields => (name, type.object) :: fieldObjects fields

end

mutual

theorem type_object : ∀ type : ColumnType, type.object.type = type
  | .undef | .scalar _ | .custom _ => rfl
  | .list valueType => by
      rw [object, typeCollection, TypeObject.type, type_object valueType]
  | .map keyType valueType => by
      rw [object, typeMap, TypeObject.type, type_object keyType, type_object valueType]
  | .set valueType => by
      rw [object, typeSet, TypeObject.type, type_object valueType]
  | .tuple types => by rw [object, TypeObject.type, types_objects types]
  | .userType _ _ fields => by rw [object, TypeObject.type, fieldTypes_fieldObjects fields]

theorem types_objects : ∀ types : List ColumnType, TypeObject.types (objects types) = types
  | [] => rfl
  | type :: types => by rw [objects, TypeObject.types, type_object type, types_objects types]

theorem fieldTypes_fieldObjects : ∀ fields : List (List UInt8 × ColumnType),
    TypeObject.fieldTypes (fieldObjects fields) = fields
  | [] => rfl
  | (name, type) :: fields => by
      rw [fieldObjects, TypeObject.fieldTypes, type_object type, fieldTypes_fieldObjects fields]

end

theorem dataType_object : ∀ type : ColumnType, type.object.dataType = type.mirror
  | .undef | .scalar _ | .custom _ | .tuple _ | .userType _ _ _ => rfl
  | .list valueType => by
      rw [object, TypeObject.typeCollection_eq, TypeObject.dataType, dataType_object valueType,
        mirror]
  | .map keyType valueType => by
      rw [object, TypeObject.typeMap_eq, TypeObject.dataType, dataType_object keyType,
        dataType_object valueType, mirror]
  | .set valueType => by
      rw [object, TypeObject.typeSet_eq, TypeObject.dataType, dataType_object valueType, mirror]

end

theorem mirror_of_defined {type : ColumnType} (defined : type.isUndef = false) :
    ∃ told, type.mirror = some told := by
  cases type with
  | undef => cases defined
  | scalar _ | custom _ | list _ | map _ _ | set _ | tuple _ | userType _ _ _ => exact ⟨_, rfl⟩

theorem mirrors_append (types others : List ColumnType) :
    mirrors (types ++ others) = mirrors types ++ mirrors others := by
  induction types with
  | nil => rfl
  | cons type types ih => rw [List.cons_append, mirrors, mirrors, ih, List.append_assoc]

theorem mirrorFields_append (fields others : List (List UInt8 × ColumnType)) :
    mirrorFields (fields ++ others) = mirrorFields fields ++ mirrorFields others := by
  induction fields with
  | nil => rfl
  | cons field fields ih =>
      rw [List.cons_append, mirrorFields, mirrorFields, ih, List.append_assoc]

variable [DataTypeCalls]

theorem objects_append (types others : List ColumnType) :
    objects (types ++ others) = objects types ++ objects others := by
  induction types with
  | nil => rfl
  | cons type types ih => rw [List.cons_append, objects, objects, ih, List.cons_append]

theorem fieldObjects_append (fields others : List (List UInt8 × ColumnType)) :
    fieldObjects (fields ++ others) = fieldObjects fields ++ fieldObjects others := by
  induction fields with
  | nil => rfl
  | cons field fields ih =>
      rw [List.cons_append, fieldObjects, fieldObjects, ih, List.cons_append]

theorem keys_fieldObjects (fields : List (List UInt8 × ColumnType)) :
    OrderedMap.keys (fieldObjects fields) = fields.map Prod.fst := by
  induction fields with
  | nil => rfl
  | cons field fields ih =>
      rw [OrderedMap.keys] at ih
      rw [fieldObjects, OrderedMap.keys, List.map_cons, ih, List.map_cons]

/-- A tuple that tells the driver what it shows does so with one more type. -/
theorem tupleAdd_object (types : List ColumnType) {type : ColumnType}
    (defined : type.isUndef = false) :
    typeTupleAdd (ColumnType.tuple types).object type.object =
      some ((ColumnType.tuple (types ++ [type])).object, true) := by
  obtain ⟨told, mirrored⟩ := mirror_of_defined defined
  rw [object, typeTupleAdd, dataType_object, mirrored, object, mirrors_append, objects_append,
    mirrors, mirrored]
  simp only [Option.map_some, DataTypeCalls.addSubType_tuple]
  rfl

theorem userTypeAdd_object (keyspace typeName : Option (List UInt8))
    {fields : List (List UInt8 × ColumnType)} {name : List UInt8}
    (new : name ∉ fields.map Prod.fst) {type : ColumnType} (defined : type.isUndef = false) :
    typeUserTypeAdd (ColumnType.userType keyspace typeName fields).object name type.object =
      some ((ColumnType.userType keyspace typeName (fields ++ [(name, type)])).object, true) := by
  obtain ⟨told, mirrored⟩ := mirror_of_defined defined
  rw [← keys_fieldObjects] at new
  rw [object, typeUserTypeAdd, dataType_object, mirrored, object, mirrorFields_append,
    fieldObjects_append, mirrorFields, mirrored]
  simp only [Option.map_some, DataTypeCalls.addSubTypeByName_userType, OrderedMap.add, if_neg new]
  rfl

end ColumnType

end PhpDriver
