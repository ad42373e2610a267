import PhpDriver.Util.ClassDump
import PhpDriver.Util.HexCodec

namespace PhpDriver

open Data ClassTree

/-! The type objects made of the nodes of a validator, class by class. -/

theorem hexDigit_eq {half : Nat} (small : half < 16) : hexDigit half = hexStr.getD half 0 := by
  revert half
  decide +kernel

theorem hex_eq_hexChars (bytes : List UInt8) : hex bytes = hexChars bytes := by
  rw [hex, hexChars]
  apply List.flatMap_congr
  intro byte _
  have high : byte.toNat / 16 < 16 := Nat.div_lt_of_lt_mul byte.toNat_lt
  have low : byte.toNat % 16 < 16 := Nat.mod_lt _ (by decide)
  rw [hexDigit_eq high, hexDigit_eq low, hexChar_high, hexChar_low]

theorem fromHex_hex (bytes : List UInt8) : fromHex (hex bytes) = some bytes := by
  rw [hex_eq_hexChars, fromHex_hexChars]

theorem cString_eq_iff {bytes : List UInt8} : cString bytes = bytes ↔ 0 ∉ bytes := by
  rw [cString, List.takeWhile_eq_self_iff]
  simp only [ne_eq, decide_not, Bool.not_eq_eq_eq_not, Bool.not_true, decide_eq_false_iff_not]
  exact ⟨fun each member => each 0 member rfl, fun none ch member same => none (same ▸ member)⟩

/-- The full name of a class is looked up as this class and no other. -/
theorem readInFull {entry : String × ColumnClass} (member : entry ∈ columnClasses) :
    isWrapper (marshal entry.1) = false ∧ lookupType (marshal entry.1) = entry.2 := by
  have apart {className : String} (compared : className ∈ comparedNames)
      (begins : marshal entry.1 <+: marshal className) : entry.1 = className :=
    comparedNames_apart _ (mem_comparedNames member) _ compared (marshal_prefix_iff.mp begins)
  have others : ∀ entry ∈ columnClasses, entry.1 ∉ wrapperNames := by decide
  have once : ∀ entry ∈ columnClasses, ∀ other ∈ columnClasses,
      entry.1 = other.1 → other.2 = entry.2 := by decide
  constructor
  · have wraps (className : String) (wrapper : className ∈ wrapperNames) :
        startsWith (marshal className) (marshal entry.1) = false := by
      rw [Bool.eq_false_iff, ne_eq, startsWith_iff]
      intro begins
      have same := apart (List.mem_append_left _ wrapper) begins
      exact others entry member (same ▸ wrapper)
    rw [isWrapper, isFrozen, isReversed, isComposite, wraps "FrozenType" (by decide),
      wraps "ReversedType" (by decide), wraps "CompositeType" (by decide)]
    rfl
  · cases found : columnClasses.find? fun other => startsWith (marshal other.1)
        (marshal entry.1) with
    | none =>
        have missed := List.find?_eq_none.mp found entry member
        exact absurd (startsWith_iff.mpr List.prefix_rfl) missed
    | some other =>
        have there := List.mem_of_find?_eq_some found
        have starts : startsWith (marshal other.1) (marshal entry.1) = true := by
          simpa using List.find?_some found
        rw [lookupType, found]
        exact once entry member other there (apart (mem_comparedNames there)
          (startsWith_iff.mp starts))

theorem scalar_mem_columnClasses (type : ScalarType) :
    (type.className, .scalar type.named) ∈ columnClasses := by
  cases type <;> decide

section

variable (siblings : List ClassTree)

theorem createType_wrapper {name : List UInt8} (wraps : isWrapper name) (child : ClassTree)
    (others : List ClassTree) :
    createType (.node name (child :: others)) siblings = createType child others := by
  rw [createType, if_pos wraps]

theorem createType_scalar (type : ScalarType) :
    createType (.node (marshal type.className) []) siblings = some (.scalar type.named) := by
  have known := readInFull (scalar_mem_columnClasses type)
  rw [createType, known.1, known.2]
  rfl

theorem createType_list (value : ClassTree) (others : List ClassTree) :
    createType (.node (marshal "ListType") (value :: others)) siblings =
      (createType value others).map .list := by
  have known := @readInFull ("ListType", .list) (by decide)
  rw [createType, known.1, known.2]
  rfl

theorem createType_set (value : ClassTree) (others : List ClassTree) :
    createType (.node (marshal "SetType") (value :: others)) siblings =
      (createType value others).map .set := by
  have known := @readInFull ("SetType", .set) (by decide)
  rw [createType, known.1, known.2]
  rfl

theorem createType_map_eq_some_iff (key value : ClassTree) (others : List ClassTree)
    {keyType valueType : ColumnType} :
    createType (.node (marshal "MapType") (key :: value :: others)) siblings =
        some (.map keyType valueType) ↔
      createType key (value :: others) = some keyType ∧
        createType value others = some valueType := by
  have known := @readInFull ("MapType", .map) (by decide)
  rw [createType, known.1, known.2, if_neg Bool.false_ne_true]
  dsimp only
  generalize createType key (value :: others) = madeKey
  generalize createType value others = madeValue
  cases madeKey <;> cases madeValue <;> simp

theorem createType_tuple (children : List ClassTree) :
    createType (.node (marshal "TupleType") children) siblings =
      (tupleFromNode children).map .tuple := by
  have known := @readInFull ("TupleType", .tuple) (by decide)
  unfold createType
  rw [known.1, known.2]
  rfl

theorem createType_userType (keyspace typeName : ClassTree) (fields : List ClassTree) :
    createType (.node (marshal "UserType") (keyspace :: typeName :: fields)) siblings =
      (userTypeFromNode [] fields).map
        (.userType (some keyspace.name) ((fromHex typeName.name).map cString)) := by
  have known := @readInFull ("UserType", .userType) (by decide)
  rw [createType, known.1, known.2]
  rfl

end

theorem tupleFromNode_cons_eq_some_iff {current : ClassTree} {others : List ClassTree}
    {type : ColumnType} {types : List ColumnType} (defined : type.isUndef = false) :
    tupleFromNode (current :: others) = some (type :: types) ↔
      createType current others = some type ∧ tupleFromNode others = some types := by
  rw [tupleFromNode]
  cases createType current others with
  | none => simp
  | some made =>
      cases tupleFromNode others with
      | none => simp
      | some rest =>
          cases undef : made.isUndef with
          | true =>
              simp only [undef, if_true, reduceCtorEq, Option.some.injEq, false_iff, not_and]
              rintro rfl
              rw [defined] at undef
              cases undef
          | false => simp [undef]

theorem foreign_iff (name : List UInt8) :
    MarshalType.Foreign name ↔ isWrapper name = false ∧ lookupType name = .custom := by
  have wrapper : isWrapper name = false ↔
      ∀ className ∈ wrapperNames, ¬ name <+: marshal className := by
    simp only [isWrapper, isFrozen, isReversed, isComposite, Bool.or_eq_false_iff, wrapperNames,
      List.forall_mem_cons, ← startsWith_iff, Bool.not_eq_true]
    simp [and_assoc]
  have column : lookupType name = .custom ↔
      ∀ className ∈ columnClasses.map Prod.fst, ¬ name <+: marshal className := by
    rw [List.forall_mem_map]
    constructor
    · intro custom entry member begins
      exact lookupType_of_begins member begins custom
    · intro foreign
      have missed : columnClasses.find? (fun entry => startsWith (marshal entry.1) name) =
          none := by
        rw [List.find?_eq_none]
        intro entry member begins
        exact foreign entry member (startsWith_iff.mp begins)
      rw [lookupType, missed]
  rw [wrapper, column, MarshalType.Foreign, List.forall_mem_append]
  rfl

/-- A name that is not foreign is not made a custom type of itself. -/
theorem createType_custom_iff (name : List UInt8) (siblings : List ClassTree) :
    createType (.node name []) siblings = some (.custom name) ↔
      MarshalType.Foreign name ∧ siblings.isEmpty = true := by
  have alone : nodeDump (.node name []) = name := by
    rw [nodeDump_eq, if_pos List.isEmpty_nil, List.append_nil]
  rw [foreign_iff]
  constructor
  · intro custom
    cases own : isWrapper name with
    | true =>
        rw [createType, if_pos own] at custom
        cases custom
    | false =>
        have kind : lookupType name = .custom :=
          @lookupType_of_custom (.node name []) _ _ ⟨own, custom⟩
        refine ⟨⟨rfl, kind⟩, ?_⟩
        rw [@createType_custom (.node name []) own kind, Option.some.injEq,
          ColumnType.custom.injEq] at custom
        cases siblings with
        | nil => rfl
        | cons next siblings =>
            have longer := congrArg List.length custom
            rw [nodeDumpTo_cons, alone, List.length_append, List.length_cons] at longer
            omega
  · rintro ⟨⟨own, kind⟩, last⟩
    obtain rfl := List.isEmpty_iff.mp last
    rw [@createType_custom (.node name []) own kind, nodeDumpTo_single, alone]

/-! The fields of a user type, of which the second of one name is dropped. -/

theorem userTypeFromNode_cons_cons_eq_some_iff {types result : OrderedMap (List UInt8) ColumnType}
    {name current : ClassTree} {others : List ClassTree} :
    userTypeFromNode types (name :: current :: others) = some result ↔
      ∃ fieldName type, fromHex name.name = some fieldName ∧
        createType current others = some type ∧ type.isUndef = false ∧
        userTypeFromNode (userTypeAdd types (cString fieldName) type) others = some result := by
  rw [userTypeFromNode]
  cases fromHex name.name with
  | none => simp
  | some fieldName =>
      cases createType current others with
      | none => simp
      | some type => cases undef : type.isUndef <;> simp [undef]

theorem userTypeAdd_keeps (types : OrderedMap (List UInt8) ColumnType) (name : List UInt8)
    (type : ColumnType) :
    types <+: userTypeAdd types name type ∧
      (userTypeAdd types name type).length ≤ types.length + 1 := by
  rw [userTypeAdd]
  split
  · exact ⟨List.prefix_rfl, Nat.le_succ _⟩
  · exact ⟨List.prefix_append _ _, by simp⟩

/-- No field is lost that was there, and one is added for two nodes at most. -/
theorem userTypeFromNode_keeps : ∀ {nodes : List ClassTree}
    {types result : OrderedMap (List UInt8) ColumnType},
    userTypeFromNode types nodes = some result →
      types <+: result ∧ 2 * result.length ≤ 2 * types.length + nodes.length
  | [], types, result, made => by
      rw [userTypeFromNode] at made
      obtain rfl := Option.some.inj made
      exact ⟨List.prefix_rfl, Nat.le_add_right _ _⟩
  | [_], types, result, made => by
      rw [userTypeFromNode] at made
      obtain rfl := Option.some.inj made
      exact ⟨List.prefix_rfl, Nat.le_add_right _ _⟩
  | name :: current :: others, types, result, made => by
      obtain ⟨fieldName, type, _, _, _, rest⟩ := userTypeFromNode_cons_cons_eq_some_iff.mp made
      have grown := userTypeAdd_keeps types (cString fieldName) type
      have kept := userTypeFromNode_keeps rest
      refine ⟨grown.1.trans kept.1, ?_⟩
      rw [List.length_cons, List.length_cons]
      omega

theorem columnType_own {tree : ClassTree} (own : isWrapper tree.name = false)
    (siblings : List ClassTree) (reversed frozen : Bool) :
    columnType reversed frozen tree siblings =
      match createType tree siblings with
      | some type => .success reversed frozen type
      | none => .undefined := by
  cases tree with
  | node name children =>
      rw [ClassTree.name, isWrapper, Bool.or_eq_false_iff, Bool.or_eq_false_iff] at own
      unfold columnType
      rw [own.1.1, own.1.2, own.2]
      cases createType (.node name children) siblings <;> rfl

theorem columnType_bare {name : List UInt8} (wraps : isWrapper name = true)
    (siblings : List ClassTree) (reversed frozen : Bool) :
    columnType reversed frozen (.node name []) siblings = .invalidType := by
  rw [isWrapper, Bool.or_eq_true, Bool.or_eq_true] at wraps
  unfold columnType
  grind

theorem columnType_wrapper {name : List UInt8} (wraps : isWrapper name = true)
    (child : ClassTree) (others siblings : List ClassTree) (reversed frozen : Bool) :
    ∃ isReversed isFrozen, columnType reversed frozen (.node name (child :: others)) siblings =
      columnType isReversed isFrozen child others := by
  rw [isWrapper, Bool.or_eq_true, Bool.or_eq_true] at wraps
  rw [columnType]
  split
  · exact ⟨_, _, rfl⟩
  · split
    · exact ⟨_, _, rfl⟩
    · split
      · exact ⟨_, _, rfl⟩
      · simp_all

namespace MarshalType

theorem isUndef_type : ∀ type : MarshalType, type.type.isUndef = false
  | .scalar _ | .custom _ | .list _ | .map _ _ | .set _ | .tuple _ | .userType _ _ _ => by
      rw [type]
      rfl
  | .frozen inner => by rw [type, isUndef_type inner]
  | .reversed inner => by rw [type, isUndef_type inner]

theorem isEmpty_trees (types : List MarshalType) : (trees types).isEmpty = types.isEmpty := by
  cases types <;> simp [trees]

theorem isEmpty_fieldTrees (fields : List (List UInt8 × MarshalType)) :
    (fieldTrees fields).isEmpty = fields.isEmpty := by
  cases fields <;> simp [fieldTrees]

theorem length_fieldTrees (fields : List (List UInt8 × MarshalType)) :
    (fieldTrees fields).length = 2 * fields.length := by
  induction fields with
  | nil => rfl
  | cons field fields ih =>
      rw [fieldTrees, List.length_cons, List.length_cons, ih, List.length_cons]
      omega

theorem length_fieldTypes (fields : List (List UInt8 × MarshalType)) :
    (fieldTypes fields).length = fields.length := by
  induction fields with
  | nil => rfl
  | cons field fields ih => rw [fieldTypes, List.length_cons, ih, List.length_cons]

mutual

/-- The nodes make the type they are about, and where they do not say it another or none. -/
theorem createType_tree : ∀ (type : MarshalType) (siblings : List ClassTree),
    createType type.tree siblings = some type.type ↔ type.Distinct siblings.isEmpty
  | .scalar type, siblings => by
      rw [tree, createType_scalar, MarshalType.type, Distinct]
      exact iff_of_true rfl trivial
  | .custom className, siblings => by
      rw [tree, MarshalType.type, Distinct]
      exact createType_custom_iff className.text siblings
  | .list valueType, siblings => by
      have inner := createType_tree valueType []
      rw [List.isEmpty_nil] at inner
      rw [tree, createType_list, MarshalType.type, Distinct, ← inner]
      simp
  | .map keyType valueType, siblings => by
      rw [tree, MarshalType.type, createType_map_eq_some_iff, Distinct,
        createType_tree keyType, createType_tree valueType]
      rfl
  | .set valueType, siblings => by
      have inner := createType_tree valueType []
      rw [List.isEmpty_nil] at inner
      rw [tree, createType_set, MarshalType.type, Distinct, ← inner]
      simp
  | .tuple elements, siblings => by
      rw [tree, createType_tuple, MarshalType.type, Distinct, ← tupleFromNode_trees elements]
      simp
  | .userType keyspace typeName fields, siblings => by
      have inner := userTypeFromNode_fieldTrees fields []
      have fresh : ∀ field ∈ fields, field.1 ∉ OrderedMap.keys ([] : OrderedMap _ ColumnType) := by
        simp [OrderedMap.keys]
      rw [List.nil_append, iff_true_intro fresh, true_and] at inner
      rw [tree, createType_userType, MarshalType.type, Distinct, ← inner, ← cString_eq_iff]
      simp only [ClassTree.name, fromHex_hex, Option.map_some, Option.map_eq_some_iff,
        ColumnType.userType.injEq, Option.some.injEq, true_and]
      exact ⟨fun ⟨_, made, whole, same⟩ => ⟨whole, same ▸ made⟩,
        fun ⟨whole, made⟩ => ⟨_, made, whole, rfl⟩⟩
  | .frozen type, siblings => by
      rw [tree, createType_wrapper siblings (by decide +kernel), MarshalType.type, Distinct,
        createType_tree type]
      rfl
  | .reversed type, siblings => by
      rw [tree, createType_wrapper siblings (by decide +kernel), MarshalType.type, Distinct,
        createType_tree type]
      rfl

theorem tupleFromNode_trees : ∀ types : List MarshalType,
    tupleFromNode (trees types) = some (MarshalType.types types) ↔ AllDistinct types
  | [] => by
      rw [trees, tupleFromNode, MarshalType.types, AllDistinct]
      exact iff_of_true rfl trivial
  | type :: types => by
      rw [trees, MarshalType.types, tupleFromNode_cons_eq_some_iff (isUndef_type type),
        createType_tree type, isEmpty_trees, tupleFromNode_trees types, AllDistinct]

theorem userTypeFromNode_fieldTrees : ∀ (fields : List (List UInt8 × MarshalType))
    (types : OrderedMap (List UInt8) ColumnType),
    userTypeFromNode types (fieldTrees fields) = some (types ++ fieldTypes fields) ↔
      (∀ field ∈ fields, 0 ∉ field.1) ∧ (∀ field ∈ fields, field.1 ∉ types.keys) ∧
        (fields.map Prod.fst).Nodup ∧ FieldsDistinct fields
  | [], types => by
      rw [fieldTrees, userTypeFromNode, fieldTypes, List.append_nil, FieldsDistinct]
      simp
  | (name, type) :: fields, types => by
      rw [fieldTrees, fieldTypes, userTypeFromNode_cons_cons_eq_some_iff]
      have appended : types ++ (name, type.type) :: fieldTypes fields =
          (types ++ [(name, type.type)]) ++ fieldTypes fields := by simp
      have inner := userTypeFromNode_fieldTrees fields (types ++ [(name, type.type)])
      have keys : OrderedMap.keys (types ++ [(name, type.type)]) = types.keys ++ [name] := by
        simp [OrderedMap.keys]
      rw [keys, ← appended] at inner
      constructor
      · rintro ⟨fieldName, made, decoded, created, defined, rest⟩
        rw [ClassTree.name, fromHex_hex] at decoded
        obtain rfl := Option.some.inj decoded
        have kept := userTypeFromNode_keeps rest
        rw [userTypeAdd] at kept rest
        split at kept
        · have few := kept.2
          rw [List.length_append, List.length_cons, length_fieldTypes, length_fieldTrees] at few
          omega
        · rename_i new
          rw [if_neg new] at rest
          have first := List.cons_prefix_cons.mp ((List.prefix_append_right_inj _).mp kept.1)
          obtain ⟨whole, rfl⟩ := Prod.mk.inj first.1
          rw [whole] at new rest
          obtain ⟨zeros, fresh, nodup, distinct⟩ := inner.mp rest
          rw [createType_tree type, isEmpty_fieldTrees] at created
          rw [List.forall_mem_cons, List.forall_mem_cons, List.map_cons, List.nodup_cons,
            FieldsDistinct]
          refine ⟨⟨cString_eq_iff.mp whole, zeros⟩, ⟨new, fun field member old => ?_⟩,
            ⟨fun member => ?_, nodup⟩, created, distinct⟩
          · exact fresh field member (List.mem_append_left _ old)
          · obtain ⟨field, there, same⟩ := List.mem_map.mp member
            exact fresh field there (by simp [same])
      · intro distinct
        rw [List.forall_mem_cons, List.forall_mem_cons, List.map_cons, List.nodup_cons,
          FieldsDistinct] at distinct
        obtain ⟨⟨zero, zeros⟩, ⟨new, fresh⟩, ⟨once, nodup⟩, created, others⟩ := distinct
        rw [← isEmpty_fieldTrees, ← createType_tree type] at created
        refine ⟨name, type.type, fromHex_hex name, created, isUndef_type type, ?_⟩
        rw [cString_eq_iff.mpr zero, userTypeAdd, if_neg new]
        refine inner.mpr ⟨zeros, fun field member old => ?_, nodup, others⟩
        rcases List.mem_append.mp old with before | same
        · exact fresh field member before
        · rw [List.mem_singleton] at same
          exact once (List.mem_map.mpr ⟨field, member, same⟩)

end

theorem columnType_plain {type : MarshalType} (own : isWrapper type.tree.name = false)
    (reversed frozen : Bool) :
    columnType reversed frozen type.tree [] = .success reversed frozen type.type ↔
      type.Distinct true := by
  rw [← @List.isEmpty_nil ClassTree, ← createType_tree type, columnType_own own]
  cases createType type.tree [] <;> simp

theorem columnType_tree : ∀ (type : MarshalType) (wasReversed wasFrozen : Bool),
    columnType wasReversed wasFrozen type.tree [] =
        .success (wasReversed || type.outerReversed) (wasFrozen || type.outerFrozen) type.type ↔
      type.Distinct true
  | .scalar type, wasReversed, wasFrozen => by
      have known := readInFull (scalar_mem_columnClasses type)
      simp only [outerReversed, outerFrozen, Bool.or_false]
      exact columnType_plain (by rw [tree]; exact known.1) wasReversed wasFrozen
  | .custom className, wasReversed, wasFrozen => by
      simp only [outerReversed, outerFrozen, Bool.or_false]
      cases wraps : isWrapper className.text with
      | true =>
          rw [tree, columnType_bare wraps, Distinct, foreign_iff, wraps]
          simp
      | false => exact columnType_plain (by rwa [tree]) wasReversed wasFrozen
  | .list _, wasReversed, wasFrozen | .map _ _, wasReversed, wasFrozen
  | .set _, wasReversed, wasFrozen
  | .tuple _, wasReversed, wasFrozen | .userType _ _ _, wasReversed, wasFrozen => by
      simp only [outerReversed, outerFrozen, Bool.or_false]
      apply columnType_plain
      rw [tree]
      simp only [ClassTree.name]
      decide +kernel
  | .frozen type, wasReversed, wasFrozen => by
      have known : isReversed (marshal "FrozenType") = false ∧
          isFrozen (marshal "FrozenType") = true := by decide +kernel
      rw [tree, columnType, known.1, known.2, if_neg Bool.false_ne_true, if_pos rfl, outerReversed,
        outerFrozen, MarshalType.type, Distinct, ← columnType_tree type wasReversed true]
      simp
  | .reversed type, wasReversed, wasFrozen => by
      have known : isReversed (marshal "ReversedType") = true := by decide +kernel
      rw [tree, columnType, known, if_pos rfl, outerReversed,
        outerFrozen, MarshalType.type, Distinct, ← columnType_tree type true wasFrozen]
      simp

end MarshalType

end PhpDriver
