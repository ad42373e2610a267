import PhpDriver.Type.Object

namespace PhpDriver

open Data

/-! What the driver is told about a type. -/

namespace ColumnType

mutual

/-- The data type that says to the driver what the type shows: the names of custom classes and
of user types are not in it. -/
def mirror : ColumnType → Option DataType
  | .undef => none
  | .scalar type => some (.simple type)
  | .custom _ => some (.custom [])
  | .list valueType => some (.list valueType.mirror.toList)
  | .map keyType valueType => some (.map (keyType.mirror.toList ++ valueType.mirror.toList))
  | .set valueType => some (.set valueType.mirror.toList)
  | .tuple types => some (.tuple (mirrors types))
  | .userType _ _ fields => some (.userType [] [] (mirrorFields fields))

def mirrors : List ColumnType → List DataType
  | [] => []
  | type :: types => type.mirror.toList ++ mirrors types

def mirrorFields : List (List UInt8 × ColumnType) → List (List UInt8 × DataType)
  | [] => []
  | (name, type) :: fields => type.mirror.toList.map (Prod.mk name) ++ mirrorFields fields

end

end ColumnType

namespace DataType

mutual

def NamesDistinct : DataType → Prop
  | .simple _ => True
  | .custom _ => True
  | .list types => AllNamesDistinct types
  | .map types => AllNamesDistinct types
  | .set types => AllNamesDistinct types
  | .tuple types => AllNamesDistinct types
  | .userType _ _ fields => (fields.map Prod.fst).Nodup ∧ FieldNamesDistinct fields

def AllNamesDistinct : List DataType → Prop
  | [] => True
  | type :: types => type.NamesDistinct ∧ AllNamesDistinct types

def FieldNamesDistinct : List (List UInt8 × DataType) → Prop
  | [] => True
  | (_, type) :: fields => type.NamesDistinct ∧ FieldNamesDistinct fields

end

theorem allNamesDistinct_iff (types : List DataType) :
    AllNamesDistinct types ↔ ∀ type ∈ types, type.NamesDistinct := by
  induction types with
  | nil => simp [AllNamesDistinct]
  | cons type types ih => rw [AllNamesDistinct, ih, List.forall_mem_cons]

theorem fieldNamesDistinct_iff (fields : List (List UInt8 × DataType)) :
    FieldNamesDistinct fields ↔ ∀ field ∈ fields, field.2.NamesDistinct := by
  induction fields with
  | nil => simp [FieldNamesDistinct]
  | cons field fields ih => rw [FieldNamesDistinct, ih, List.forall_mem_cons]

end DataType

namespace TypeObject

theorem types_eq_map (objects : List TypeObject) : types objects = objects.map type := by
  induction objects with
  | nil => rfl
  | cons object objects ih => rw [types, ih, List.map_cons]

theorem fieldTypes_eq_map (fields : List (List UInt8 × TypeObject)) :
    fieldTypes fields = fields.map fun field => (field.1, field.2.type) := by
  induction fields with
  | nil => rfl
  | cons field fields ih => rw [fieldTypes, ih, List.map_cons]

theorem mirrors_types (objects : List TypeObject) :
    ColumnType.mirrors (types objects) =
      objects.flatMap fun object => object.type.mirror.toList := by
  induction objects with
  | nil => rfl
  | cons object objects ih => rw [types, ColumnType.mirrors, ih, List.flatMap_cons]

theorem mirrorFields_fieldTypes (fields : List (List UInt8 × TypeObject)) :
    ColumnType.mirrorFields (fieldTypes fields) =
      fields.flatMap fun field => field.2.type.mirror.toList.map (Prod.mk field.1) := by
  induction fields with
  | nil => rfl
  | cons field fields ih =>
      rw [fieldTypes, ColumnType.mirrorFields, ih, List.flatMap_cons]

theorem dataType_userType (dataType : DataType) (keyspace typeName : Option (List UInt8))
    (fields : List (List UInt8 × TypeObject)) :
    (TypeObject.userType dataType keyspace typeName fields).dataType = some dataType := rfl

theorem isSome_mirror (object : TypeObject) :
    object.type.mirror.isSome = object.dataType.isSome := by
  cases object with
  | undef => rfl
  | scalar _ _ => rfl
  | custom _ _ => rfl
  | list _ _ => rfl
  | map _ _ _ => rfl
  | set _ _ => rfl
  | tuple _ _ => rfl
  | userType _ _ _ _ => rfl

/-- What is in an object: the data types it keeps are those its parts keep, and of the fields
that were added to a user type only the first of each name is shown. -/
inductive Formed : TypeObject → Prop
  | undef : Formed .undef
  | scalar (type : ScalarType) : Formed (.scalar (.simple type) type)
  | custom (className : List UInt8) : Formed (.custom (.custom []) className)
  | list {valueType : TypeObject} (formed : Formed valueType) :
      Formed (.list (.list valueType.dataType.toList) valueType)
  | map {keyType valueType : TypeObject} (formedKey : Formed keyType) (formed : Formed valueType) :
      Formed (.map (.map (keyType.dataType.toList ++ valueType.dataType.toList)) keyType valueType)
  | set {valueType : TypeObject} (formed : Formed valueType) :
      Formed (.set (.set valueType.dataType.toList) valueType)
  | tuple {types : List TypeObject} (formed : ∀ type ∈ types, Formed type) :
      Formed (.tuple (.tuple (types.flatMap fun type => type.dataType.toList)) types)
  | userType (keyspace typeName : Option (List UInt8)) {added : List (List UInt8 × TypeObject)}
      (formed : ∀ field ∈ added, Formed field.2)
      (present : ∀ field ∈ added, field.2.dataType.isSome) :
      Formed (.userType (.userType [] []
        (added.flatMap fun field => field.2.dataType.toList.map (Prod.mk field.1)))
        keyspace typeName (OrderedMap.addAll [] added))

theorem flatMap_eq_iff {Item Part : Type} {items : List Item} {first second : Item → List Part}
    (lengths : ∀ item ∈ items, (first item).length = (second item).length) :
    items.flatMap first = items.flatMap second ↔ ∀ item ∈ items, first item = second item := by
  induction items with
  | nil => simp
  | cons item items ih =>
      rw [List.forall_mem_cons] at lengths
      rw [List.flatMap_cons, List.flatMap_cons, List.forall_mem_cons, ← ih lengths.2]
      constructor
      · exact fun same => List.append_inj same lengths.1
      · exact fun ⟨head, tail⟩ => by rw [head, tail]

theorem toList_inj {Item : Type} {first second : Option Item} :
    first.toList = second.toList ↔ first = second := by
  cases first <;> cases second <;> simp

theorem length_toList_mirror (object : TypeObject) :
    object.dataType.toList.length = object.type.mirror.toList.length := by
  rw [Option.length_toList, Option.length_toList, isSome_mirror]

theorem names_flatMap {Other : Type} {added : List (List UInt8 × Other)}
    {part : Other → Option DataType} (present : ∀ field ∈ added, (part field.2).isSome) :
    (added.flatMap fun field => (part field.2).toList.map (Prod.mk field.1)).map Prod.fst =
      added.map Prod.fst := by
  induction added with
  | nil => rfl
  | cons field added ih =>
      rw [List.forall_mem_cons] at present
      obtain ⟨found, foundEq⟩ := Option.isSome_iff_exists.mp present.1
      rw [List.flatMap_cons, List.map_append, ih present.2, foundEq]
      rfl

theorem toList_map_inj {name : List UInt8} {first second : Option DataType} :
    first.toList.map (Prod.mk name) = second.toList.map (Prod.mk name) ↔ first = second := by
  cases first <;> cases second <;> simp

section

variable {objects : List TypeObject} {fields : List (List UInt8 × TypeObject)}

theorem parts_mirror_iff (each : ∀ object ∈ objects, object.dataType = object.type.mirror ↔
      ∀ dataType ∈ object.dataType, dataType.NamesDistinct) :
    (objects.flatMap fun object => object.dataType.toList) =
        (objects.flatMap fun object => object.type.mirror.toList) ↔
      DataType.AllNamesDistinct (objects.flatMap fun object => object.dataType.toList) := by
  rw [flatMap_eq_iff fun object _ => length_toList_mirror object, DataType.allNamesDistinct_iff]
  simp only [toList_inj, List.mem_flatMap, Option.mem_toList]
  constructor
  · rintro same dataType ⟨object, member, found⟩
    exact (each object member).mp (same object member) dataType found
  · intro distinct object member
    exact (each object member).mpr fun dataType found => distinct dataType ⟨object, member, found⟩

theorem fields_mirror_iff (each : ∀ field ∈ fields, field.2.dataType = field.2.type.mirror ↔
      ∀ dataType ∈ field.2.dataType, dataType.NamesDistinct) :
    (fields.flatMap fun field => field.2.dataType.toList.map (Prod.mk field.1)) =
        (fields.flatMap fun field => field.2.type.mirror.toList.map (Prod.mk field.1)) ↔
      DataType.FieldNamesDistinct
        (fields.flatMap fun field => field.2.dataType.toList.map (Prod.mk field.1)) := by
  have lengths (field : List UInt8 × TypeObject) (_ : field ∈ fields) :
      (field.2.dataType.toList.map (Prod.mk field.1)).length =
        (field.2.type.mirror.toList.map (Prod.mk field.1)).length := by
    rw [List.length_map, List.length_map, length_toList_mirror]
  rw [flatMap_eq_iff lengths, DataType.fieldNamesDistinct_iff]
  simp only [toList_map_inj, List.mem_flatMap, List.mem_map, Option.mem_toList]
  constructor
  · rintro same _ ⟨field, member, dataType, found, rfl⟩
    exact (each field member).mp (same field member) dataType found
  · intro distinct field member
    exact (each field member).mpr fun dataType found =>
      distinct (field.1, dataType) ⟨field, member, dataType, found, rfl⟩

end

/-- What the driver is told is what the type shows, unless a field of a user type came twice. -/
theorem Formed.mirrors_iff {object : TypeObject} (formed : object.Formed) :
    object.dataType = object.type.mirror ↔
      ∀ dataType ∈ object.dataType, dataType.NamesDistinct := by
  induction formed with
  | undef => simp [dataType, type, ColumnType.mirror]
  | scalar type => simp [dataType, TypeObject.type, ColumnType.mirror, DataType.NamesDistinct]
  | custom className => simp [dataType, type, ColumnType.mirror, DataType.NamesDistinct]
  | @list valueType _ ih =>
      have parts := @parts_mirror_iff [valueType] (by simpa using ih)
      simpa [dataType, type, ColumnType.mirror, DataType.NamesDistinct] using parts
  | @map keyType valueType _ _ ihKey ih =>
      have parts := @parts_mirror_iff [keyType, valueType] (by simpa using ⟨ihKey, ih⟩)
      simpa [dataType, type, ColumnType.mirror, DataType.NamesDistinct] using parts
  | @set valueType _ ih =>
      have parts := @parts_mirror_iff [valueType] (by simpa using ih)
      simpa [dataType, type, ColumnType.mirror, DataType.NamesDistinct] using parts
  | @tuple types _ ih =>
      have parts := parts_mirror_iff ih
      simpa [dataType, type, ColumnType.mirror, DataType.NamesDistinct, mirrors_types] using parts
  | @userType keyspace typeName added _ present ih =>
      have told := names_flatMap present
      have shown : ∀ field ∈ OrderedMap.addAll [] added, field.2.type.mirror.isSome := by
        intro field member
        rw [isSome_mirror]
        exact present field ((OrderedMap.mem_addAll member).resolve_left List.not_mem_nil)
      simp only [dataType_userType, type, ColumnType.mirror, mirrorFields_fieldTypes,
        Option.some.injEq, DataType.userType.injEq, true_and, Option.mem_def, forall_eq',
        DataType.NamesDistinct, told]
      constructor
      · intro same
        have names := congrArg (List.map Prod.fst) same
        rw [told, @names_flatMap TypeObject _ (fun object => object.type.mirror) shown] at names
        have nodup : (added.map Prod.fst).Nodup := by
          rw [names]
          exact @OrderedMap.nodup_addAll _ _ _ [] List.nodup_nil added
        rw [OrderedMap.addAll_nil_eq_iff.mpr nodup] at same
        exact ⟨nodup, (fields_mirror_iff ih).mp same⟩
      · rintro ⟨nodup, distinct⟩
        rw [OrderedMap.addAll_nil_eq_iff.mpr nodup]
        exact (fields_mirror_iff ih).mpr distinct

theorem formed_tuple : typeTuple.Formed :=
  @Formed.tuple [] (by simp)

theorem formed_userType (keyspace typeName : Option (List UInt8)) :
    (TypeObject.userType (.userType [] [] []) keyspace typeName []).Formed :=
  @Formed.userType keyspace typeName [] (by simp) (by simp)

theorem Formed.withName {type object : TypeObject} {name : List UInt8} (formed : type.Formed)
    (made : PhpDriver.withName type name = some object) : object.Formed := by
  cases formed with
  | userType _ _ formed present =>
      obtain rfl := Option.some.inj made
      exact .userType _ _ formed present
  | undef | scalar _ | custom _ | list _ | map _ _ | set _ | tuple _ => cases made

theorem Formed.withKeyspace {type object : TypeObject} {keyspace : List UInt8}
    (formed : type.Formed) (made : PhpDriver.withKeyspace type keyspace = some object) :
    object.Formed := by
  cases formed with
  | userType _ _ formed present =>
      obtain rfl := Option.some.inj made
      exact .userType _ _ formed present
  | undef | scalar _ | custom _ | list _ | map _ _ | set _ | tuple _ => cases made

variable [DataTypeCalls]

theorem typeCollection_eq (valueType : TypeObject) :
    typeCollection valueType = .list (.list valueType.dataType.toList) valueType := by
  rw [typeCollection, withSubType]
  cases valueType.dataType with
  | none => rfl
  | some told =>
      dsimp only
      rw [DataTypeCalls.addSubType_list]
      rfl

theorem typeSet_eq (valueType : TypeObject) :
    typeSet valueType = .set (.set valueType.dataType.toList) valueType := by
  rw [typeSet, withSubType]
  cases valueType.dataType with
  | none => rfl
  | some told =>
      dsimp only
      rw [DataTypeCalls.addSubType_set]
      rfl

theorem withSubType_map {types : List DataType} (room : types.length < 2) (subType : TypeObject) :
    withSubType (.map types) subType = .map (types ++ subType.dataType.toList) := by
  rw [withSubType]
  cases subType.dataType with
  | none => rw [Option.toList_none, List.append_nil]
  | some told =>
      dsimp only
      rw [DataTypeCalls.addSubType_map types told room]
      rfl

theorem typeMap_eq (keyType valueType : TypeObject) :
    typeMap keyType valueType =
      .map (.map (keyType.dataType.toList ++ valueType.dataType.toList)) keyType valueType := by
  have one : keyType.dataType.toList.length < 2 := by
    rw [Option.length_toList]
    split <;> omega
  rw [typeMap, withSubType_map (by simp), List.nil_append, withSubType_map one]

theorem formed_collection {valueType : TypeObject} (formed : valueType.Formed) :
    (typeCollection valueType).Formed := by
  rw [typeCollection_eq]
  exact .list formed

theorem formed_set {valueType : TypeObject} (formed : valueType.Formed) :
    (typeSet valueType).Formed := by
  rw [typeSet_eq]
  exact .set formed

theorem formed_map {keyType valueType : TypeObject} (formedKey : keyType.Formed)
    (formed : valueType.Formed) : (typeMap keyType valueType).Formed := by
  rw [typeMap_eq]
  exact .map formedKey formed

theorem Formed.tupleAdd {tuple subType added : TypeObject} {result : Bool} (formed : tuple.Formed)
    (formedPart : subType.Formed) (adds : typeTupleAdd tuple subType = some (added, result)) :
    added.Formed ∧ result = true := by
  cases formed with
  | @tuple types formed =>
      rw [typeTupleAdd] at adds
      obtain ⟨told, found, adds⟩ := Option.map_eq_some_iff.mp adds
      simp only [DataTypeCalls.addSubType_tuple] at adds
      obtain ⟨rfl, rfl⟩ := Prod.mk.inj adds
      refine ⟨?_, rfl⟩
      have grown := @Formed.tuple (types ++ [subType])
        (List.forall_mem_append.mpr ⟨formed, List.forall_mem_singleton.mpr formedPart⟩)
      simpa [found] using grown
  | undef | scalar _ | custom _ | list _ | map _ _ | set _ | userType _ _ _ _ => cases adds

theorem Formed.userTypeAdd {userType subType added : TypeObject} {name : List UInt8}
    {result : Bool} (formed : userType.Formed) (formedPart : subType.Formed)
    (adds : typeUserTypeAdd userType name subType = some (added, result)) :
    added.Formed ∧ result = true := by
  cases formed with
  | @userType keyspace typeName fields formed present =>
      rw [typeUserTypeAdd] at adds
      obtain ⟨told, found, adds⟩ := Option.map_eq_some_iff.mp adds
      simp only [DataTypeCalls.addSubTypeByName_userType] at adds
      obtain ⟨rfl, rfl⟩ := Prod.mk.inj adds
      refine ⟨?_, rfl⟩
      have grown := @Formed.userType keyspace typeName (fields ++ [(name, subType)])
        (List.forall_mem_append.mpr ⟨formed, List.forall_mem_singleton.mpr formedPart⟩)
        (List.forall_mem_append.mpr ⟨present, List.forall_mem_singleton.mpr (by simp [found])⟩)
      have appended : OrderedMap.addAll [] (fields ++ [(name, subType)]) =
          (OrderedMap.addAll [] fields).add name subType := List.foldl_append ..
      rw [appended] at grown
      simpa [found] using grown
  | undef | scalar _ | custom _ | list _ | map _ _ | set _ | tuple _ => cases adds

theorem formed_tupleOf {types : List TypeObject} (formedParts : ∀ type ∈ types, type.Formed)
    {tuple object : TypeObject} (formed : tuple.Formed) (made : tupleOf tuple types = some object) :
    object.Formed := by
  induction types generalizing tuple with
  | nil =>
      obtain rfl := Option.some.inj made
      exact formed
  | cons subType types ih =>
      rw [List.forall_mem_cons] at formedParts
      rw [tupleOf] at made
      split at made
      · cases made
      · rename_i adds
        exact ih formedParts.2 (formed.tupleAdd formedParts.1 adds).1 made
      · rename_i adds
        cases (formed.tupleAdd formedParts.1 adds).2

theorem formed_userTypeOf {fields : List (List UInt8 × TypeObject)}
    (formedParts : ∀ field ∈ fields, field.2.Formed) {userType object : TypeObject}
    (formed : userType.Formed) (made : userTypeOf userType fields = some object) :
    object.Formed := by
  induction fields generalizing userType with
  | nil =>
      obtain rfl := Option.some.inj made
      exact formed
  | cons field fields ih =>
      rw [List.forall_mem_cons] at formedParts
      rw [userTypeOf] at made
      split at made
      · cases made
      · rename_i adds
        exact ih formedParts.2 (formed.userTypeAdd formedParts.1 adds).1 made
      · rename_i adds
        cases (formed.userTypeAdd formedParts.1 adds).2

mutual

theorem formed_fromDataType : ∀ {dataType : DataType} {object : TypeObject},
    typeFromDataType dataType = some object → object.Formed
  | .simple type, object, made => by
      obtain rfl := Option.some.inj made
      exact .scalar type
  | .custom className, object, made => by
      obtain rfl := Option.some.inj made
      exact .custom _
  | .list [], object, made => by cases made
  | .list (valueType :: _), object, made => by
      obtain ⟨part, partMade, rfl⟩ := Option.map_eq_some_iff.mp made
      exact formed_collection (formed_fromDataType partMade)
  | .map [], object, made => by cases made
  | .map [_], object, made => by cases made
  | .map (keyType :: valueType :: _), object, made => by
      rw [typeFromDataType] at made
      split at made
      · rename_i keyMade valueMade
        obtain rfl := Option.some.inj made
        exact formed_map (formed_fromDataType keyMade) (formed_fromDataType valueMade)
      · cases made
  | .set [], object, made => by cases made
  | .set (valueType :: _), object, made => by
      obtain ⟨part, partMade, rfl⟩ := Option.map_eq_some_iff.mp made
      exact formed_set (formed_fromDataType partMade)
  | .tuple types, object, made => formed_tupleFromDataType formed_tuple made
  | .userType _ _ types, object, made =>
      formed_userTypeFromDataType (formed_userType _ _) made

theorem formed_tupleFromDataType : ∀ {types : List DataType} {tuple object : TypeObject},
    tuple.Formed → tupleFromDataType tuple types = some object → object.Formed
  | [], whole, object, formed, made => by
      obtain rfl := Option.some.inj made
      exact formed
  | dataType :: types, whole, object, formed, made => by
      rw [tupleFromDataType] at made
      split at made
      · cases made
      rename_i partMade
      split at made
      · cases made
      rename_i adds
      exact formed_tupleFromDataType (formed.tupleAdd (formed_fromDataType partMade) adds).1 made

theorem formed_userTypeFromDataType :
    ∀ {types : List (List UInt8 × DataType)} {userType object : TypeObject},
      userType.Formed → userTypeFromDataType userType types = some object → object.Formed
  | [], whole, object, formed, made => by
      obtain rfl := Option.some.inj made
      exact formed
  | (name, dataType) :: types, whole, object, formed, made => by
      rw [userTypeFromDataType] at made
      split at made
      · cases made
      rename_i partMade
      split at made
      · cases made
      rename_i adds
      exact formed_userTypeFromDataType
        (formed.userTypeAdd (formed_fromDataType partMade) adds).1 made

end

mutual

theorem formed_createTypeObject : ∀ {tree : ClassTree} {siblings : List ClassTree}
    {object : TypeObject}, createTypeObject tree siblings = some object → object.Formed
  | .node name children, siblings, object, made => by
      unfold createTypeObject at made
      split at made
      · cases children with
        | nil =>
            obtain rfl := Option.some.inj made
            exact .undef
        | cons child others => exact formed_createTypeObject made
      · split at made
        · obtain rfl := Option.some.inj made
          exact .custom _
        · cases children with
          | nil =>
              obtain rfl := Option.some.inj made
              exact formed_map .undef .undef
          | cons key others =>
              cases others with
              | nil =>
                  obtain ⟨part, partMade, rfl⟩ := Option.map_eq_some_iff.mp made
                  exact formed_map (formed_createTypeObject partMade) .undef
              | cons value others =>
                  dsimp only at made
                  split at made
                  · rename_i keyMade valueMade
                    obtain rfl := Option.some.inj made
                    exact formed_map (formed_createTypeObject keyMade)
                      (formed_createTypeObject valueMade)
                  · cases made
        · cases children with
          | nil =>
              obtain rfl := Option.some.inj made
              exact formed_collection .undef
          | cons value others =>
              obtain ⟨part, partMade, rfl⟩ := Option.map_eq_some_iff.mp made
              exact formed_collection (formed_createTypeObject partMade)
        · cases children with
          | nil =>
              obtain rfl := Option.some.inj made
              exact formed_set .undef
          | cons value others =>
              obtain ⟨part, partMade, rfl⟩ := Option.map_eq_some_iff.mp made
              exact formed_set (formed_createTypeObject partMade)
        · exact formed_tupleObjectFromNode formed_tuple made
        · cases children with
          | nil =>
              obtain rfl := Option.some.inj made
              exact formed_userType none none
          | cons keyspace others =>
              cases others with
              | nil =>
                  obtain rfl := Option.some.inj made
                  exact formed_userType _ none
              | cons typeName fields =>
                  exact formed_userTypeObjectFromNode (formed_userType _ _) made
        · obtain rfl := Option.some.inj made
          exact .scalar _

theorem formed_tupleObjectFromNode : ∀ {nodes : List ClassTree} {tuple object : TypeObject},
    tuple.Formed → tupleObjectFromNode tuple nodes = some object → object.Formed
  | [], whole, object, formed, made => by
      obtain rfl := Option.some.inj made
      exact formed
  | current :: others, whole, object, formed, made => by
      rw [tupleObjectFromNode] at made
      split at made
      · cases made
      rename_i partMade
      split at made
      · cases made
      rename_i adds
      exact formed_tupleObjectFromNode
        (formed.tupleAdd (formed_createTypeObject partMade) adds).1 made

theorem formed_userTypeObjectFromNode :
    ∀ {nodes : List ClassTree} {userType object : TypeObject},
      userType.Formed → userTypeObjectFromNode userType nodes = some object → object.Formed
  | [], whole, object, formed, made => by
      obtain rfl := Option.some.inj made
      exact formed
  | [_], whole, object, formed, made => by
      obtain rfl := Option.some.inj made
      exact formed
  | name :: current :: others, whole, object, formed, made => by
      rw [userTypeObjectFromNode] at made
      split at made
      · rename_i decoded partMade
        split at made
        · cases made
        rename_i adds
        exact formed_userTypeObjectFromNode
          (formed.userTypeAdd (formed_createTypeObject partMade) adds).1 made
      · cases made

end

theorem Built.formed {object : TypeObject} (built : object.Built) : object.Formed := by
  induction built with
  | fromDataType made => exact formed_fromDataType made
  | fromNode made => exact formed_createTypeObject made
  | scalar type => exact .scalar type
  | collection _ _ ih => exact formed_collection ih
  | map _ _ _ _ ihKey ih => exact formed_map ihKey ih
  | set _ _ ih => exact formed_set ih
  | tuple _ _ made ih => exact formed_tupleOf ih formed_tuple made
  | userType _ _ made ih => exact formed_userTypeOf ih (formed_userType none none) made
  | withName _ made ih => exact ih.withName made
  | withKeyspace _ made ih => exact ih.withKeyspace made

end TypeObject

/-- However a type was made, the driver is told the type that PHP sees exactly if no user type in
what it is told has a field twice. -/
theorem data_type_mirrors_iff [DataTypeCalls] {object : TypeObject} (built : object.Built) :
    object.dataType = object.type.mirror ↔ ∀ dataType ∈ object.dataType, dataType.NamesDistinct :=
  built.formed.mirrors_iff

attribute [local instance] DataTypeCalls.reference

/-- `Type::userType('a', Type::int(), 'b', Type::collection(Type::text()))`, and with `a` for
`b`. -/
theorem user_types_are_told :
    (∃ object, userTypeOf typeUserType [(ascii "a", typeScalar .int),
        (ascii "b", typeCollection (typeScalar .text))] = some object ∧
        object.dataType = object.type.mirror) ∧
      ∃ object, userTypeOf typeUserType [(ascii "a", typeScalar .int),
        (ascii "a", typeCollection (typeScalar .text))] = some object ∧
        object.dataType ≠ object.type.mirror := by
  have built (name : List UInt8) : ∀ field ∈ [(ascii "a", typeScalar .int),
      (name, typeCollection (typeScalar .text))], field.2.Built := by
    intro field member
    rcases List.mem_cons.mp member with rfl | member
    · exact .scalar .int
    · obtain rfl := List.mem_singleton.mp member
      exact .collection (.scalar .text) rfl
  have valid (name : List UInt8) : ∀ field ∈ [(ascii "a", typeScalar .int),
      (name, typeCollection (typeScalar .text))], field.2.validate := by
    intro field member
    rcases List.mem_cons.mp member with rfl | member
    · rfl
    · obtain rfl := List.mem_singleton.mp member
      rfl
  constructor
  · refine ⟨_, rfl, (data_type_mirrors_iff (.userType (built _) (valid _) rfl)).mpr ?_⟩
    intro dataType told
    obtain rfl := Option.some.inj told
    have apart : ascii "a" ≠ ascii "b" := by decide
    have texts : withSubType (.list []) (typeScalar .text) = .list [.simple .text] := rfl
    simp [DataType.NamesDistinct, DataType.FieldNamesDistinct, DataType.AllNamesDistinct, apart,
      texts]
  · refine ⟨_, rfl, fun same => ?_⟩
    have distinct := (data_type_mirrors_iff (.userType (built _) (valid _) rfl)).mp same _ rfl
    simp [DataType.NamesDistinct] at distinct

end PhpDriver
