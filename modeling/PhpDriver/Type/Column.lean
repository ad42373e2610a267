import PhpDriver.Type.RoundTrip
import PhpDriver.Util.MarshalExact

namespace PhpDriver

open Data ColumnType

/-! The types of columns. An old Cassandra gives validators for them, and a new one types that
the driver has read already. -/

/-- The field of a row of the schema: the text in it, or what the driver says where it is no
text. -/
abbrev SchemaField : Type := Except Nat (List UInt8)

structure ColumnMeta where
  name : List UInt8
  validator : Option SchemaField := none
  dataType : Option DataType := none
  isFrozen : Bool := false
  clusteringOrder : Option SchemaField := none

structure Column where
  name : List UInt8
  type : TypeObject := .undef
  reversed : Bool := false
  frozen : Bool := false

inductive ColumnError where
  | driver (rc : Nat)
  | validator (error : ParseError)
  | invalidType
  /-- `Unable to get column field "clustering_order"`. -/
  | noClusteringOrder

inductive ColumnAnswer where
  | column (column : Column)
  | thrown (error : ColumnError)
  | undefined

inductive ObjectResult where
  | success (reversed frozen : Bool) (type : TypeObject)
  | failure (error : ParseError)
  | invalidType
  | undefined

section

variable [DataTypeCalls]

/-- The loop of `php_driver_parse_column_type`, as in `columnType`, with the data types. -/
def columnTypeObject (reversed frozen : Bool) : ClassTree → List ClassTree → ObjectResult
  | .node name children, siblings =>
      if isReversed name then
        match children with
        | [] => .invalidType
        | child :: others => columnTypeObject true frozen child others
      else if isFrozen name then
        match children with
        | [] => .invalidType
        | child :: others => columnTypeObject reversed true child others
      else if isComposite name then
        match children with
        | [] => .invalidType
        | child :: others => columnTypeObject reversed frozen child others
      else
        match createTypeObject (.node name children) siblings with
        | some type => .success reversed frozen type
        | none => .undefined

def parseColumnTypeObject (validator : List UInt8) : ObjectResult :=
  match parseClassName validator with
  | .success nodes =>
      match nodesFrom nodes nodes.length (some 0) with
      | [] => .invalidType
      | root :: siblings => columnTypeObject false false root siblings
  | .failure error => .failure error
  | .nullDereference => .undefined

/-- `strncmp(clustering_order, "desc", clustering_order_length) == 0`. -/
def isDescending (clusteringOrder : List UInt8) : Bool :=
  if 0 ∈ clusteringOrder then cString clusteringOrder == ascii "desc"
  else startsWith (ascii "desc") clusteringOrder

def createColumn (column : ColumnMeta) : ColumnAnswer :=
  match column.validator with
  | some (.error rc) => .thrown (.driver rc)
  | some (.ok validator) =>
      match parseColumnTypeObject validator with
      | .success reversed frozen type => .column { name := column.name, type, reversed, frozen }
      | .failure error => .thrown (.validator error)
      | .invalidType => .thrown .invalidType
      | .undefined => .undefined
  | none =>
      match column.dataType with
      | none => .column { name := column.name }
      | some dataType =>
          match typeFromDataType dataType with
          | none => .undefined
          | some type =>
              match column.clusteringOrder with
              | none => .thrown .noClusteringOrder
              | some (.error rc) => .thrown (.driver rc)
              | some (.ok clusteringOrder) =>
                  .column {
                    name := column.name, type
                    reversed := isDescending clusteringOrder, frozen := column.isFrozen
                  }

end

/-! The object made of a node shows the type that is made of it. -/

theorem dataType_eq_none_iff (object : TypeObject) :
    object.dataType = none ↔ object.type.isUndef = true := by
  cases object with
  | undef => exact iff_of_true rfl rfl
  | scalar _ _ | custom _ _ | list _ _ | map _ _ _ | set _ _ | tuple _ _ | userType _ _ _ _ =>
      simp [TypeObject.dataType, TypeObject.type, isUndef]

theorem fieldTypes_add (fields : List (List UInt8 × TypeObject)) (name : List UInt8)
    (subType : TypeObject) :
    TypeObject.fieldTypes (OrderedMap.add fields name subType) =
      userTypeAdd (TypeObject.fieldTypes fields) name subType.type := by
  have keys : OrderedMap.keys (TypeObject.fieldTypes fields) = OrderedMap.keys fields := by
    rw [TypeObject.fieldTypes_eq_map, OrderedMap.keys, OrderedMap.keys, List.map_map]
    rfl
  rw [OrderedMap.add, userTypeAdd, keys]
  split
  · rfl
  · rw [TypeObject.fieldTypes_eq_map, TypeObject.fieldTypes_eq_map, List.map_append]
    rfl

section

variable [DataTypeCalls]

mutual

theorem type_createTypeObject : ∀ (tree : ClassTree) (siblings : List ClassTree),
    (createTypeObject tree siblings).map TypeObject.type = createType tree siblings
  | .node name children, siblings => by
      unfold createTypeObject createType
      split
      · cases children with
        | nil => rfl
        | cons child others => exact type_createTypeObject child others
      · cases lookupType name with
        | custom | scalar _ => rfl
        | map =>
            cases children with
            | nil => rfl
            | cons key others =>
                cases others with
                | nil =>
                    dsimp only
                    rw [← type_createTypeObject key [], Option.map_map, Option.map_map]
                    rfl
                | cons value others =>
                    dsimp only
                    rw [← type_createTypeObject key (value :: others),
                      ← type_createTypeObject value others]
                    cases createTypeObject key (value :: others) <;>
                      cases createTypeObject value others <;> rfl
        | list | set =>
            cases children with
            | nil => rfl
            | cons value others =>
                dsimp only
                rw [← type_createTypeObject value others, Option.map_map, Option.map_map]
                rfl
        | tuple =>
            dsimp only
            rw [typeTuple, type_tupleObjectFromNode children [] []]
            rfl
        | userType =>
            cases children with
            | nil => rfl
            | cons keyspace others =>
                cases others with
                | nil => rfl
                | cons typeName fields => exact type_userTypeObjectFromNode fields [] [] _ _

theorem type_tupleObjectFromNode : ∀ (nodes : List ClassTree) (told : List DataType)
    (parts : List TypeObject),
    (tupleObjectFromNode (.tuple (.tuple told) parts) nodes).map TypeObject.type =
      (tupleFromNode nodes).map fun types => .tuple (TypeObject.types parts ++ types)
  | [], told, parts => by
      rw [tupleObjectFromNode, tupleFromNode, Option.map_some, Option.map_some, List.append_nil]
      rfl
  | current :: others, told, parts => by
      rw [tupleObjectFromNode, tupleFromNode, ← type_createTypeObject current others]
      cases createTypeObject current others with
      | none => rfl
      | some subType =>
          cases found : subType.dataType with
          | none =>
              have undefined := (dataType_eq_none_iff subType).mp found
              cases tupleFromNode others <;> simp [typeTupleAdd, found, undefined]
          | some added =>
              have rest := type_tupleObjectFromNode others (told ++ [added]) (parts ++ [subType])
              have defined : subType.type.isUndef = false := by
                rw [Bool.eq_false_iff, ne_eq, ← dataType_eq_none_iff, found]
                exact Option.some_ne_none _
              rw [TypeObject.types_eq_map, List.map_append, List.map_singleton,
                ← TypeObject.types_eq_map] at rest
              simp only [typeTupleAdd, found, Option.map_some, DataTypeCalls.addSubType_tuple, rest]
              cases tupleFromNode others <;> simp [defined]

theorem type_userTypeObjectFromNode : ∀ (nodes : List ClassTree)
    (told : List (List UInt8 × DataType)) (parts : List (List UInt8 × TypeObject))
    (keyspace typeName : Option (List UInt8)),
    (userTypeObjectFromNode (.userType (.userType [] [] told) keyspace typeName parts)
        nodes).map TypeObject.type =
      (userTypeFromNode (TypeObject.fieldTypes parts) nodes).map (.userType keyspace typeName)
  | [], told, parts, keyspace, typeName => rfl
  | [_], told, parts, keyspace, typeName => rfl
  | name :: current :: others, told, parts, keyspace, typeName => by
      rw [userTypeObjectFromNode, userTypeFromNode, ← type_createTypeObject current others]
      cases fromHex name.name with
      | none => rfl
      | some decoded =>
          cases createTypeObject current others with
          | none => rfl
          | some subType =>
              cases found : subType.dataType with
              | none =>
                  have undefined := (dataType_eq_none_iff subType).mp found
                  simp [typeUserTypeAdd, found, undefined]
              | some added =>
                  have rest := type_userTypeObjectFromNode others
                    (told ++ [(cString decoded, added)])
                    (OrderedMap.add parts (cString decoded) subType) keyspace typeName
                  have defined : subType.type.isUndef = false := by
                    rw [Bool.eq_false_iff, ne_eq, ← dataType_eq_none_iff, found]
                    exact Option.some_ne_none _
                  rw [fieldTypes_add] at rest
                  simp only [typeUserTypeAdd, found, Option.map_some,
                    DataTypeCalls.addSubTypeByName_userType, rest, defined, Bool.false_eq_true, if_false]

end

end

def ObjectResult.shown : ObjectResult → ColumnResult
  | .success reversed frozen object => .success reversed frozen object.type
  | .failure error => .failure error
  | .invalidType => .invalidType
  | .undefined => .undefined

section

variable [DataTypeCalls]

theorem shown_columnTypeObject : ∀ (tree : ClassTree) (siblings : List ClassTree)
    (reversed frozen : Bool),
    (columnTypeObject reversed frozen tree siblings).shown =
      columnType reversed frozen tree siblings
  | .node name children, siblings, reversed, frozen => by
      unfold columnTypeObject columnType
      split
      · cases children with
        | nil => rfl
        | cons child others => exact shown_columnTypeObject child others true frozen
      · split
        · cases children with
          | nil => rfl
          | cons child others => exact shown_columnTypeObject child others reversed true
        · split
          · cases children with
            | nil => rfl
            | cons child others => exact shown_columnTypeObject child others reversed frozen
          · rw [← type_createTypeObject (.node name children) siblings]
            cases createTypeObject (.node name children) siblings <;> rfl

theorem shown_parseColumnTypeObject (validator : List UInt8) :
    (parseColumnTypeObject validator).shown = parseColumnType validator := by
  rw [parseColumnTypeObject, parseColumnType]
  cases parseClassName validator with
  | success nodes =>
      dsimp only
      cases nodesFrom nodes nodes.length (some 0) with
      | nil => rfl
      | cons root siblings => exact shown_columnTypeObject root siblings false false
  | failure _ | nullDereference => rfl

theorem parseColumnTypeObject_derives {tree : ClassTree} {validator : List UInt8}
    (derives : Derives tree validator) :
    parseColumnTypeObject validator = columnTypeObject false false tree [] := by
  rw [parseColumnTypeObject, parseClassName_derives derives]
  simp only [nodesFrom_tree]

/-! The nodes of a validator make the object that tells the driver what it shows. -/

section

variable (siblings : List ClassTree)

theorem createTypeObject_wrapper {name : List UInt8} (wraps : isWrapper name) (child : ClassTree)
    (others : List ClassTree) :
    createTypeObject (.node name (child :: others)) siblings = createTypeObject child others := by
  rw [createTypeObject, if_pos wraps]

theorem createTypeObject_list (value : ClassTree) (others : List ClassTree) :
    createTypeObject (.node (marshal "ListType") (value :: others)) siblings =
      (createTypeObject value others).map typeCollection := by
  have known := @readInFull ("ListType", .list) (by decide)
  rw [createTypeObject, known.1, known.2]
  rfl

theorem createTypeObject_set (value : ClassTree) (others : List ClassTree) :
    createTypeObject (.node (marshal "SetType") (value :: others)) siblings =
      (createTypeObject value others).map typeSet := by
  have known := @readInFull ("SetType", .set) (by decide)
  rw [createTypeObject, known.1, known.2]
  rfl

theorem createTypeObject_map (key value : ClassTree) {keyType valueType : TypeObject}
    (madeKey : createTypeObject key [value] = some keyType)
    (made : createTypeObject value [] = some valueType) :
    createTypeObject (.node (marshal "MapType") [key, value]) siblings =
      some (typeMap keyType valueType) := by
  have known := @readInFull ("MapType", .map) (by decide)
  rw [createTypeObject, known.1, known.2, if_neg Bool.false_ne_true]
  dsimp only
  rw [madeKey, made]

theorem createTypeObject_tuple (children : List ClassTree) :
    createTypeObject (.node (marshal "TupleType") children) siblings =
      tupleObjectFromNode typeTuple children := by
  have known := @readInFull ("TupleType", .tuple) (by decide)
  unfold createTypeObject
  rw [known.1, known.2]
  rfl

theorem createTypeObject_userType (keyspace typeName : ClassTree) (fields : List ClassTree) :
    createTypeObject (.node (marshal "UserType") (keyspace :: typeName :: fields)) siblings =
      userTypeObjectFromNode (.userType (.userType [] [] []) (some keyspace.name)
        ((fromHex typeName.name).map cString) []) fields := by
  have known := @readInFull ("UserType", .userType) (by decide)
  rw [createTypeObject, known.1, known.2]
  rfl

end

namespace MarshalType

mutual

theorem createTypeObject_tree : ∀ (type : MarshalType) (siblings : List ClassTree),
    type.Distinct siblings.isEmpty → createTypeObject type.tree siblings = some type.type.object
  | .scalar type, siblings, _ => by
      have known := readInFull (scalar_mem_columnClasses type)
      rw [tree, createTypeObject, known.1, known.2]
      rfl
  | .custom className, siblings, distinct => by
      rw [Distinct] at distinct
      obtain ⟨own, kind⟩ := (foreign_iff className.text).mp distinct.1
      obtain rfl := List.isEmpty_iff.mp distinct.2
      unfold tree createTypeObject
      rw [own, if_neg Bool.false_ne_true, kind, nodeDumpTo_single, nodeDump_eq,
        if_pos List.isEmpty_nil, List.append_nil]
      rfl
  | .list valueType, siblings, distinct => by
      rw [Distinct] at distinct
      rw [tree, createTypeObject_list, createTypeObject_tree valueType [] distinct]
      rfl
  | .map keyType valueType, siblings, distinct => by
      rw [Distinct] at distinct
      rw [tree, createTypeObject_map siblings _ _
        (createTypeObject_tree keyType [valueType.tree] distinct.1)
        (createTypeObject_tree valueType [] distinct.2)]
      rfl
  | .set valueType, siblings, distinct => by
      rw [Distinct] at distinct
      rw [tree, createTypeObject_set, createTypeObject_tree valueType [] distinct]
      rfl
  | .tuple elements, siblings, distinct => by
      rw [Distinct] at distinct
      rw [tree, createTypeObject_tuple]
      exact tupleObjectFromNode_trees elements [] distinct
  | .userType keyspace typeName fields, siblings, distinct => by
      rw [Distinct] at distinct
      obtain ⟨whole, zeros, nodup, distinct⟩ := distinct
      rw [tree, createTypeObject_userType, ClassTree.name, ClassTree.name, fromHex_hex,
        Option.map_some, cString_eq_iff.mpr whole]
      exact userTypeObjectFromNode_fieldTrees fields [] zeros (by simp) nodup distinct
  | .frozen type, siblings, distinct => by
      rw [Distinct] at distinct
      rw [tree, createTypeObject_wrapper siblings (by decide +kernel),
        createTypeObject_tree type [] distinct, MarshalType.type]
  | .reversed type, siblings, distinct => by
      rw [Distinct] at distinct
      rw [tree, createTypeObject_wrapper siblings (by decide +kernel),
        createTypeObject_tree type [] distinct, MarshalType.type]

theorem tupleObjectFromNode_trees : ∀ (elements : List MarshalType) (types : List ColumnType),
    AllDistinct elements →
      tupleObjectFromNode (ColumnType.tuple types).object (trees elements) =
        some (ColumnType.tuple (types ++ MarshalType.types elements)).object
  | [], types, _ => by rw [trees, MarshalType.types, List.append_nil, tupleObjectFromNode]
  | type :: elements, types, distinct => by
      rw [AllDistinct, ← isEmpty_trees] at distinct
      rw [trees, tupleObjectFromNode, createTypeObject_tree type (trees elements) distinct.1]
      dsimp only
      rw [tupleAdd_object types (isUndef_type type)]
      dsimp only
      rw [tupleObjectFromNode_trees elements _ distinct.2, MarshalType.types, List.append_assoc,
        List.singleton_append]

theorem userTypeObjectFromNode_fieldTrees : ∀ (fields : List (List UInt8 × MarshalType))
    (types : List (List UInt8 × ColumnType)) {keyspace typeName : Option (List UInt8)},
    (∀ field ∈ fields, 0 ∉ field.1) → (∀ field ∈ fields, field.1 ∉ types.map Prod.fst) →
      (fields.map Prod.fst).Nodup → FieldsDistinct fields →
      userTypeObjectFromNode (ColumnType.userType keyspace typeName types).object
          (fieldTrees fields) =
        some (ColumnType.userType keyspace typeName (types ++ fieldTypes fields)).object
  | [], types, _, _, _, _, _, _ => by
      rw [fieldTrees, fieldTypes, List.append_nil, userTypeObjectFromNode]
  | (name, type) :: fields, types, keyspace, typeName, zeros, fresh, nodup, distinct => by
      rw [FieldsDistinct, ← isEmpty_fieldTrees] at distinct
      rw [List.forall_mem_cons] at zeros fresh
      rw [List.map_cons, List.nodup_cons] at nodup
      have later : ∀ field ∈ fields, field.1 ∉ (types ++ [(name, type.type)]).map Prod.fst := by
        intro field member
        rw [List.map_append, List.mem_append, not_or]
        refine ⟨fresh.2 field member, fun same => nodup.1 ?_⟩
        rw [← List.mem_singleton.mp same]
        exact List.mem_map_of_mem member
      rw [fieldTrees, userTypeObjectFromNode, ClassTree.name, fromHex_hex,
        createTypeObject_tree type (fieldTrees fields) distinct.1]
      dsimp only
      rw [cString_eq_iff.mpr zeros.1,
        userTypeAdd_object keyspace typeName fresh.1 (isUndef_type type)]
      dsimp only
      rw [userTypeObjectFromNode_fieldTrees fields _ zeros.2 later nodup.2 distinct.2, fieldTypes,
        List.append_assoc, List.singleton_append]

end

end MarshalType

theorem createTypeObject_of_success : ∀ {tree : ClassTree} {siblings : List ClassTree}
    {wasReversed wasFrozen reversed frozen : Bool} {object : TypeObject},
    columnTypeObject wasReversed wasFrozen tree siblings = .success reversed frozen object →
      createTypeObject tree siblings = some object
  | .node name children, siblings, wasReversed, wasFrozen, reversed, frozen, object, read => by
      cases wraps : isWrapper name with
      | true =>
          rw [isWrapper, Bool.or_eq_true, Bool.or_eq_true] at wraps
          cases children with
          | nil =>
              unfold columnTypeObject at read
              grind
          | cons child others =>
              rw [createTypeObject_wrapper siblings (by grind [isWrapper])]
              rw [columnTypeObject] at read
              split at read
              · exact createTypeObject_of_success read
              · split at read
                · exact createTypeObject_of_success read
                · split at read
                  · exact createTypeObject_of_success read
                  · simp_all
      | false =>
          rw [isWrapper, Bool.or_eq_false_iff, Bool.or_eq_false_iff] at wraps
          unfold columnTypeObject at read
          rw [wraps.1.1, wraps.1.2, wraps.2] at read
          cases made : createTypeObject (.node name children) siblings with
          | none =>
              rw [made] at read
              cases read
          | some made =>
              simp_all

namespace ColumnMeta

structure HasValidator (column : ColumnMeta) (type : MarshalType) : Prop where
  validator : column.validator = some (.ok type.text)

structure HasDataType (column : ColumnMeta) (type : MarshalType) : Prop where
  validator : column.validator = none
  dataType : ∃ told : DataType, column.dataType = some told ∧ told.whole = true ∧
    told.bare.NamesDistinct ∧ told.shown = type.type
  isFrozen : column.isFrozen = type.outerFrozen
  clusteringOrder : ∃ order, column.clusteringOrder = some (.ok order) ∧
    isDescending order = type.outerReversed

variable {column : ColumnMeta} {type : MarshalType}

theorem HasDataType.created (has : column.HasDataType type) :
    createColumn column = .column {
      name := column.name, type := type.type.object
      reversed := type.outerReversed, frozen := type.outerFrozen
    } := by
  obtain ⟨told, dataType, whole, distinct, shown⟩ := has.dataType
  obtain ⟨order, clusteringOrder, descends⟩ := has.clusteringOrder
  rw [createColumn, has.validator, dataType, clusteringOrder, has.isFrozen]
  dsimp only
  rw [object_fromDataType whole distinct, shown, descends]

theorem HasValidator.created_iff (has : column.HasValidator type) :
    createColumn column = .column {
        name := column.name, type := type.type.object
        reversed := type.outerReversed, frozen := type.outerFrozen
      } ↔ type.Legible ∧ type.Distinct true := by
  have created : createColumn column = .column {
        name := column.name, type := type.type.object
        reversed := type.outerReversed, frozen := type.outerFrozen
      } ↔ parseColumnTypeObject type.text =
        .success type.outerReversed type.outerFrozen type.type.object := by
    rw [createColumn, has.validator]
    dsimp only
    cases parseColumnTypeObject type.text <;> simp
    tauto
  rw [created]
  constructor
  · intro read
    have shown := shown_parseColumnTypeObject type.text
    rw [read, ObjectResult.shown, type_object] at shown
    have legible := MarshalType.legible_of_isDenoted shown.symm
    rw [parseColumnType_derives (type.derives legible)] at shown
    exact ⟨legible, (MarshalType.columnType_tree type false false).mp (by simpa using shown.symm)⟩
  · rintro ⟨legible, distinct⟩
    have read := (MarshalType.columnType_tree type false false).mpr distinct
    rw [parseColumnTypeObject_derives (type.derives legible)]
    rw [← shown_columnTypeObject, Bool.false_or, Bool.false_or] at read
    cases found : columnTypeObject false false type.tree [] with
    | success reversed frozen object =>
        rw [found, ObjectResult.shown, ColumnResult.success.injEq] at read
        have made := createTypeObject_of_success found
        rw [MarshalType.createTypeObject_tree type [] distinct, Option.some.injEq] at made
        rw [read.1, read.2.1, made]
    | failure _ | invalidType | undefined =>
        rw [found] at read
        cases read

end ColumnMeta

/-- A column is the same whichever Cassandra tells of it, exactly if the validator is made up of
tokens and its nodes say which type it is. -/
theorem columns_are_read_alike_iff {old new : ColumnMeta} {type : MarshalType}
    (named : old.name = new.name) (hasValidator : old.HasValidator type)
    (hasDataType : new.HasDataType type) :
    createColumn old = createColumn new ↔ type.Legible ∧ type.Distinct true := by
  rw [hasDataType.created, ← hasValidator.created_iff, named]

end

attribute [local instance] DataTypeCalls.reference

/-- A frozen list in descending order. -/
theorem frozen_list_is_read_alike :
    createColumn {
        name := ascii "v"
        validator := some (.ok (MarshalType.reversed (.frozen (.list (.scalar .int)))).text)
      } =
      createColumn {
        name := ascii "v", dataType := some (.list [.simple .int]), isFrozen := true
        clusteringOrder := some (.ok (ascii "desc"))
      } := by
  refine Iff.mpr (@columns_are_read_alike_iff _ _ _ (.reversed (.frozen (.list (.scalar .int))))
    rfl ?_ ?_) ?_
  · exact ⟨rfl⟩
  · refine ⟨rfl, ⟨_, rfl, rfl, ?_, rfl⟩, rfl, ⟨_, rfl, by decide +kernel⟩⟩
    simp [DataType.bare, DataType.NamesDistinct, DataType.AllNamesDistinct]
  · simp [MarshalType.Legible, MarshalType.Distinct]

end PhpDriver
