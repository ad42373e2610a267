import PhpDriver.Type.Canonical

namespace PhpDriver

open Data ColumnType

/-! A data type of the driver, made an object of PHP and given back. -/

namespace DataType

mutual

def whole : DataType → Bool
  | .simple _ => true
  | .custom _ => true
  | .list types =>
      match types with
      | [] => false
      | valueType :: _ => valueType.whole
  | .map types =>
      match types with
      | keyType :: valueType :: _ => keyType.whole && valueType.whole
      | _ => false
  | .set types =>
      match types with
      | [] => false
      | valueType :: _ => valueType.whole
  | .tuple types => allWhole types
  | .userType _ _ fields => fieldsWhole fields

def allWhole : List DataType → Bool
  | [] => true
  | dataType :: dataTypes => dataType.whole && allWhole dataTypes

def fieldsWhole : List (List UInt8 × DataType) → Bool
  | [] => true
  | (_, dataType) :: fields => dataType.whole && fieldsWhole fields

end

mutual

/-- Without the names of custom classes and of user types, and without the types that a
collection has no use for. -/
def bare : DataType → DataType
  | .simple type => .simple type
  | .custom _ => .custom []
  | .list types =>
      match types with
      | [] => .list []
      | valueType :: _ => .list [valueType.bare]
  | .map types =>
      match types with
      | keyType :: valueType :: _ => .map [keyType.bare, valueType.bare]
      | _ => .map []
  | .set types =>
      match types with
      | [] => .set []
      | valueType :: _ => .set [valueType.bare]
  | .tuple types => .tuple (bares types)
  | .userType _ _ fields => .userType [] [] (bareFields fields)

def bares : List DataType → List DataType
  | [] => []
  | dataType :: dataTypes => dataType.bare :: bares dataTypes

def bareFields : List (List UInt8 × DataType) → List (List UInt8 × DataType)
  | [] => []
  | (name, dataType) :: fields => (name, dataType.bare) :: bareFields fields

end

mutual

/-- What there is to see of it in PHP, where a name ends before its first zero byte. -/
def shown : DataType → ColumnType
  | .simple type => .scalar type
  | .custom className => .custom (cString className)
  | .list types =>
      match types with
      | [] => .list .undef
      | valueType :: _ => .list valueType.shown
  | .map types =>
      match types with
      | keyType :: valueType :: _ => .map keyType.shown valueType.shown
      | _ => .map .undef .undef
  | .set types =>
      match types with
      | [] => .set .undef
      | valueType :: _ => .set valueType.shown
  | .tuple types => .tuple (allShown types)
  | .userType keyspace typeName fields =>
      .userType (some (cString keyspace)) (some (cString typeName)) (fieldsShown fields)

def allShown : List DataType → List ColumnType
  | [] => []
  | dataType :: dataTypes => dataType.shown :: allShown dataTypes

def fieldsShown : List (List UInt8 × DataType) → List (List UInt8 × ColumnType)
  | [] => []
  | (name, dataType) :: fields => (name, dataType.shown) :: fieldsShown fields

end

theorem isUndef_shown (dataType : DataType) : dataType.shown.isUndef = false := by
  cases dataType with
  | simple _ | custom _ | tuple _ | userType _ _ _ => rw [shown]; rfl
  | list types | set types => cases types <;> rw [shown] <;> rfl
  | map types =>
      unfold shown
      split <;> rfl

theorem map_fst_bareFields (fields : List (List UInt8 × DataType)) :
    (bareFields fields).map Prod.fst = fields.map Prod.fst := by
  induction fields with
  | nil => rfl
  | cons field fields ih => rw [bareFields, List.map_cons, ih, List.map_cons]

mutual

theorem mirror_shown : ∀ {dataType : DataType}, dataType.whole = true →
    dataType.shown.mirror = some dataType.bare
  | .simple _, _ => rfl
  | .custom _, _ => rfl
  | .list [], whole => by cases whole
  | .list (valueType :: _), whole => by
      rw [shown, ColumnType.mirror, @mirror_shown valueType whole]
      rfl
  | .map [], whole => by cases whole
  | .map [_], whole => by cases whole
  | .map (keyType :: valueType :: _), whole => by
      obtain ⟨wholeKey, whole⟩ := Bool.and_eq_true_iff.mp whole
      rw [shown, ColumnType.mirror, @mirror_shown keyType wholeKey, @mirror_shown valueType whole]
      rfl
  | .set [], whole => by cases whole
  | .set (valueType :: _), whole => by
      rw [shown, ColumnType.mirror, @mirror_shown valueType whole]
      rfl
  | .tuple types, whole => by rw [shown, ColumnType.mirror, @mirrors_allShown types whole]; rfl
  | .userType _ _ fields, whole => by
      rw [shown, ColumnType.mirror, @mirrorFields_fieldsShown fields whole]
      rfl

theorem mirrors_allShown : ∀ {dataTypes : List DataType}, allWhole dataTypes = true →
    mirrors (allShown dataTypes) = bares dataTypes
  | [], _ => rfl
  | dataType :: dataTypes, whole => by
      obtain ⟨first, others⟩ := Bool.and_eq_true_iff.mp whole
      rw [allShown, mirrors, @mirror_shown dataType first, @mirrors_allShown dataTypes others]
      rfl

theorem mirrorFields_fieldsShown : ∀ {fields : List (List UInt8 × DataType)},
    fieldsWhole fields = true → mirrorFields (fieldsShown fields) = bareFields fields
  | [], _ => rfl
  | (name, dataType) :: fields, whole => by
      obtain ⟨first, others⟩ := Bool.and_eq_true_iff.mp whole
      rw [fieldsShown, mirrorFields, @mirror_shown dataType first,
        @mirrorFields_fieldsShown fields others]
      rfl

end

end DataType

open DataType

variable [DataTypeCalls]

mutual

theorem dataType_fromDataType : ∀ dataType : DataType,
    (typeFromDataType dataType).map TypeObject.dataType =
      if dataType.whole then some (some dataType.bare) else none
  | .simple _ => rfl
  | .custom _ => rfl
  | .list [] => rfl
  | .list (valueType :: _) => by
      have part := dataType_fromDataType valueType
      rw [typeFromDataType, whole, bare]
      cases made : typeFromDataType valueType <;> cases holds : valueType.whole <;>
        simp_all [TypeObject.typeCollection_eq, TypeObject.dataType]
  | .map [] => rfl
  | .map [_] => rfl
  | .map (keyType :: valueType :: _) => by
      have partKey := dataType_fromDataType keyType
      have part := dataType_fromDataType valueType
      rw [typeFromDataType, whole, bare]
      cases madeKey : typeFromDataType keyType <;> cases holdsKey : keyType.whole <;>
        cases made : typeFromDataType valueType <;> cases holds : valueType.whole <;>
        simp_all [TypeObject.typeMap_eq, TypeObject.dataType]
  | .set [] => rfl
  | .set (valueType :: _) => by
      have part := dataType_fromDataType valueType
      rw [typeFromDataType, whole, bare]
      cases made : typeFromDataType valueType <;> cases holds : valueType.whole <;>
        simp_all [TypeObject.typeSet_eq, TypeObject.dataType]
  | .tuple types => by
      rw [typeFromDataType, typeTuple, dataType_tupleFromDataType types, whole, bare]
      rfl
  | .userType _ _ fields => by
      rw [typeFromDataType, dataType_userTypeFromDataType fields, whole, bare]
      rfl

theorem dataType_tupleFromDataType : ∀ (dataTypes told : List DataType)
    (parts : List TypeObject),
    (tupleFromDataType (.tuple (.tuple told) parts) dataTypes).map TypeObject.dataType =
      if allWhole dataTypes then some (some (.tuple (told ++ bares dataTypes))) else none
  | [], told, parts => by
      rw [bares, List.append_nil]
      rfl
  | dataType :: dataTypes, told, parts => by
      have part := dataType_fromDataType dataType
      rw [tupleFromDataType, allWhole, bares]
      cases made : typeFromDataType dataType with
      | none => cases holds : dataType.whole <;> simp_all
      | some subType =>
          have others := dataType_tupleFromDataType dataTypes (told ++ [dataType.bare])
            (parts ++ [subType])
          cases holds : dataType.whole <;>
            simp_all [typeTupleAdd, DataTypeCalls.addSubType_tuple]

theorem dataType_userTypeFromDataType : ∀ (fields told : List (List UInt8 × DataType))
    (keyspace typeName : Option (List UInt8)) (parts : List (List UInt8 × TypeObject)),
    (userTypeFromDataType (.userType (.userType [] [] told) keyspace typeName parts)
        fields).map TypeObject.dataType =
      if fieldsWhole fields then some (some (.userType [] [] (told ++ bareFields fields)))
      else none
  | [], told, keyspace, typeName, parts => by
      rw [bareFields, List.append_nil]
      rfl
  | (name, dataType) :: fields, told, keyspace, typeName, parts => by
      have part := dataType_fromDataType dataType
      rw [userTypeFromDataType, fieldsWhole, bareFields]
      cases made : typeFromDataType dataType with
      | none => cases holds : dataType.whole <;> simp_all
      | some subType =>
          have others := dataType_userTypeFromDataType fields (told ++ [(name, dataType.bare)])
            keyspace typeName (OrderedMap.add parts name subType)
          cases holds : dataType.whole <;>
            simp_all [typeUserTypeAdd, DataTypeCalls.addSubTypeByName_userType]

end

mutual

theorem object_fromDataType : ∀ {dataType : DataType}, dataType.whole = true →
    dataType.bare.NamesDistinct → typeFromDataType dataType = some dataType.shown.object
  | .simple _, _, _ => rfl
  | .custom _, _, _ => rfl
  | .list [], whole, _ => by cases whole
  | .list (valueType :: _), whole, distinct => by
      rw [bare, DataType.NamesDistinct, AllNamesDistinct] at distinct
      rw [typeFromDataType, @object_fromDataType valueType whole distinct.1]
      rfl
  | .map [], whole, _ => by cases whole
  | .map [_], whole, _ => by cases whole
  | .map (keyType :: valueType :: _), whole, distinct => by
      obtain ⟨wholeKey, whole⟩ := Bool.and_eq_true_iff.mp whole
      rw [bare, DataType.NamesDistinct, AllNamesDistinct, AllNamesDistinct] at distinct
      rw [typeFromDataType, @object_fromDataType keyType wholeKey distinct.1,
        @object_fromDataType valueType whole distinct.2.1]
      rfl
  | .set [], whole, _ => by cases whole
  | .set (valueType :: _), whole, distinct => by
      rw [bare, DataType.NamesDistinct, AllNamesDistinct] at distinct
      rw [typeFromDataType, @object_fromDataType valueType whole distinct.1]
      rfl
  | .tuple types, whole, distinct => by
      rw [bare, DataType.NamesDistinct] at distinct
      exact object_tupleFromDataType [] whole distinct
  | .userType keyspace typeName fields, whole, distinct => by
      rw [bare, DataType.NamesDistinct, map_fst_bareFields] at distinct
      exact @object_userTypeFromDataType fields (some (cString keyspace))
        (some (cString typeName)) [] whole (by simp) distinct.1 distinct.2

theorem object_tupleFromDataType : ∀ {dataTypes : List DataType} (types : List ColumnType),
    allWhole dataTypes = true → AllNamesDistinct (bares dataTypes) →
      tupleFromDataType (ColumnType.tuple types).object dataTypes =
        some (ColumnType.tuple (types ++ allShown dataTypes)).object
  | [], types, _, _ => by rw [allShown, List.append_nil, tupleFromDataType]
  | dataType :: dataTypes, types, whole, distinct => by
      obtain ⟨first, others⟩ := Bool.and_eq_true_iff.mp whole
      rw [bares, AllNamesDistinct] at distinct
      rw [tupleFromDataType, @object_fromDataType dataType first distinct.1]
      dsimp only
      rw [tupleAdd_object types (isUndef_shown dataType)]
      dsimp only
      rw [object_tupleFromDataType _ others distinct.2, allShown, List.append_assoc,
        List.singleton_append]

theorem object_userTypeFromDataType : ∀ {dataTypes : List (List UInt8 × DataType)}
    {keyspace typeName : Option (List UInt8)} (fields : List (List UInt8 × ColumnType)),
    fieldsWhole dataTypes = true → (∀ field ∈ dataTypes, field.1 ∉ fields.map Prod.fst) →
      (dataTypes.map Prod.fst).Nodup → FieldNamesDistinct (bareFields dataTypes) →
      userTypeFromDataType (ColumnType.userType keyspace typeName fields).object dataTypes =
        some (ColumnType.userType keyspace typeName (fields ++ fieldsShown dataTypes)).object
  | [], _, _, fields, _, _, _, _ => by
      rw [fieldsShown, List.append_nil, userTypeFromDataType]
  | (name, dataType) :: dataTypes, keyspace, typeName, fields, whole, fresh, nodup, distinct => by
      obtain ⟨first, others⟩ := Bool.and_eq_true_iff.mp whole
      rw [bareFields, FieldNamesDistinct] at distinct
      rw [List.forall_mem_cons] at fresh
      rw [List.map_cons, List.nodup_cons] at nodup
      have later : ∀ field ∈ dataTypes,
          field.1 ∉ (fields ++ [(name, dataType.shown)]).map Prod.fst := by
        intro field member
        rw [List.map_append, List.mem_append, not_or]
        refine ⟨fresh.2 field member, fun same => nodup.1 ?_⟩
        rw [← List.mem_singleton.mp same]
        exact List.mem_map_of_mem member
      rw [userTypeFromDataType, @object_fromDataType dataType first distinct.1]
      dsimp only
      rw [userTypeAdd_object keyspace typeName fresh.1 (isUndef_shown dataType)]
      dsimp only
      rw [object_userTypeFromDataType _ others later nodup.2 distinct.2, fieldsShown,
        List.append_assoc, List.singleton_append]

end

/-- The driver gets back what it gave but the names and the types without a use, or the code
reads through `NULL` where a type is missing; and PHP sees all of it exactly if no user type has
a field twice. -/
theorem data_types_come_back (dataType : DataType) :
    (typeFromDataType dataType).map TypeObject.dataType =
        (if dataType.whole then some (some dataType.bare) else none) ∧
      ∀ object ∈ typeFromDataType dataType,
        object.type = dataType.shown ↔ dataType.bare.NamesDistinct := by
  have told := dataType_fromDataType dataType
  refine ⟨told, fun object made => ?_⟩
  rw [Option.mem_def] at made
  rw [made, Option.map_some] at told
  cases whole : dataType.whole with
  | false =>
      rw [whole] at told
      cases told
  | true =>
      rw [whole, if_pos rfl, Option.some.injEq] at told
      constructor
      · intro seen
        have mirrored := (TypeObject.formed_fromDataType made).mirrors_iff.mp
          (by rw [told, seen, mirror_shown whole])
        exact mirrored _ (by rw [told, Option.mem_def])
      · intro distinct
        rw [object_fromDataType whole distinct] at made
        obtain rfl := Option.some.inj made
        exact type_object _

end PhpDriver
