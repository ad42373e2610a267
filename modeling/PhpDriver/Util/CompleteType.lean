import PhpDriver.Util.MarshalRead

namespace PhpDriver

open Data ClassTree Punctuation

/-! Which of the type objects made of a validator have all their parts. -/

namespace ColumnType

mutual

def WellFormed : ColumnType → Prop
  | .undef => False
  | .scalar _ | .custom _ => True
  | .list valueType | .set valueType => valueType.WellFormed
  | .map keyType valueType => keyType.WellFormed ∧ valueType.WellFormed
  | .tuple types => AllWellFormed types
  | .userType keyspace typeName types =>
      keyspace.isSome ∧ typeName.isSome ∧ FieldsWellFormed types

def AllWellFormed : List ColumnType → Prop
  | [] => True
  | type :: types => type.WellFormed ∧ AllWellFormed types

def FieldsWellFormed : List (List UInt8 × ColumnType) → Prop
  | [] => True
  | (_, type) :: types => type.WellFormed ∧ FieldsWellFormed types

end

attribute [simp] WellFormed AllWellFormed FieldsWellFormed

end ColumnType

def ColumnResult.Sound : ColumnResult → Prop
  | .success _ _ type => type.WellFormed
  | .failure _ | .invalidType => True
  | .undefined => False

namespace ClassTree

def unwrapped : ClassTree → Option ClassTree
  | .node name children =>
      if isWrapper name then
        match children with
        | [] => none
        | child :: _ => child.unwrapped
      else some (.node name children)

def fieldName (node : ClassTree) : List UInt8 :=
  cString ((fromHex node.name).getD [])

mutual

/-- A type is made without reading through an undefined one or through a name that was not
decoded. It may lack some of its parts. -/
def Buildable : ClassTree → Prop
  | .node name children =>
      if isWrapper name then
        match children with
        | [] => True
        | child :: _ => child.Buildable
      else
        match lookupType name with
        | .scalar _ | .custom => True
        | .list | .set =>
            match children with
            | [] => True
            | value :: _ => value.Buildable
        | .map =>
            match children with
            | [] => True
            | [key] => key.Buildable
            | key :: value :: _ => key.Buildable ∧ value.Buildable
        | .tuple => AllBuildable children
        | .userType =>
            match children with
            | _ :: _ :: fields => FieldsBuildable fields
            | _ => True

def AllBuildable : List ClassTree → Prop
  | [] => True
  | child :: children => child.Buildable ∧ child.unwrapped.isSome ∧ AllBuildable children

/-- A field name that no type follows is not looked at. -/
def FieldsBuildable : List ClassTree → Prop
  | name :: type :: others =>
      IsHex name.name ∧ type.Buildable ∧ type.unwrapped.isSome ∧ FieldsBuildable others
  | _ => True

end

mutual

def Complete : ClassTree → Prop
  | .node name children =>
      if isWrapper name then
        match children with
        | [] => False
        | child :: _ => child.Complete
      else
        match lookupType name with
        | .scalar _ | .custom => True
        | .list | .set =>
            match children with
            | [] => False
            | value :: _ => value.Complete
        | .map =>
            match children with
            | key :: value :: _ => key.Complete ∧ value.Complete
            | _ => False
        | .tuple => AllComplete children
        | .userType =>
            match children with
            | _ :: typeName :: fields => IsHex typeName.name ∧ FieldsComplete [] fields
            | _ => False

def AllComplete : List ClassTree → Prop
  | [] => True
  | child :: children => child.Complete ∧ AllComplete children

/-- A second field of one name is dropped, but its type is made. -/
def FieldsComplete (names : List (List UInt8)) : List ClassTree → Prop
  | name :: type :: others =>
      IsHex name.name ∧
        if names.contains name.fieldName then
          type.Buildable ∧ type.unwrapped.isSome ∧ FieldsComplete names others
        else type.Complete ∧ FieldsComplete (names ++ [name.fieldName]) others
  | _ => True

end

end ClassTree

theorem ColumnType.WellFormed.defined {type : ColumnType} (wellFormed : type.WellFormed) :
    type.isUndef = false := by
  cases type with
  | undef =>
      rw [ColumnType.WellFormed] at wellFormed
      exact absurd wellFormed id
  | _ => rfl

def Makes (made : Option ColumnType) : Prop :=
  ∃ type, made = some type ∧ type.WellFormed

@[simp] theorem not_makes_none : ¬ Makes none := by
  rintro ⟨_, made, _⟩
  cases made

@[simp] theorem makes_some_iff {type : ColumnType} : Makes (some type) ↔ type.WellFormed := by
  simp [Makes]

def MakesAll (made : Option (List ColumnType)) : Prop :=
  ∃ types, made = some types ∧ ColumnType.AllWellFormed types

def MakesFields (made : Option (OrderedMap (List UInt8) ColumnType)) : Prop :=
  ∃ types, made = some types ∧ ColumnType.FieldsWellFormed types

theorem makes_list_iff (made : Option ColumnType) : Makes (made.map .list) ↔ Makes made := by
  cases made <;> simp

theorem makes_set_iff (made : Option ColumnType) : Makes (made.map .set) ↔ Makes made := by
  cases made <;> simp

theorem makes_map_iff (key value : Option ColumnType) :
    Makes (match key, value with
      | some key, some value => some (.map key value)
      | _, _ => none) ↔ Makes key ∧ Makes value := by
  cases key <;> cases value <;> simp

theorem not_makes_half_map (key : Option ColumnType) :
    ¬ Makes (key.map fun key => .map key .undef) := by
  cases key <;> simp

theorem makes_tuple_iff (made : Option (List ColumnType)) :
    Makes (made.map .tuple) ↔ MakesAll made := by
  cases made <;> simp [MakesAll]

theorem makes_userType_iff (keyspace : List UInt8) (typeName : Option (List UInt8))
    (made : Option (OrderedMap (List UInt8) ColumnType)) :
    Makes (made.map (.userType (some keyspace) typeName)) ↔
      typeName.isSome ∧ MakesFields made := by
  cases made <;> simp [MakesFields]

theorem makesAll_cons_iff (child : ClassTree) (children : List ClassTree) :
    MakesAll (tupleFromNode (child :: children)) ↔
      Makes (createType child children) ∧ MakesAll (tupleFromNode children) := by
  rw [tupleFromNode]
  cases createType child children with
  | none => simp [MakesAll]
  | some type =>
      cases tupleFromNode children with
      | none => simp [MakesAll]
      | some types =>
          cases undef : type.isUndef with
          | true =>
              have not : ¬ type.WellFormed := by
                intro wellFormed
                rw [wellFormed.defined] at undef
                cases undef
              simp [MakesAll, undef, not]
          | false => simp [MakesAll, undef]

theorem fieldsWellFormed_iff (types : List (List UInt8 × ColumnType)) :
    ColumnType.FieldsWellFormed types ↔ ∀ field ∈ types, field.2.WellFormed := by
  induction types with
  | nil => simp
  | cons field types ih => rw [ColumnType.FieldsWellFormed, ih, List.forall_mem_cons]

theorem fieldsWellFormed_append {types : List (List UInt8 × ColumnType)}
    (wellFormed : ColumnType.FieldsWellFormed types) (name : List UInt8) {type : ColumnType}
    (whole : type.WellFormed) : ColumnType.FieldsWellFormed (types ++ [(name, type)]) := by
  rw [fieldsWellFormed_iff] at wellFormed ⊢
  intro field member
  rcases List.mem_append.mp member with before | last
  · exact wellFormed field before
  · obtain rfl := List.mem_singleton.mp last
    exact whole

/-! What is made without reading through anything undefined. -/

def Builds (made : Option ColumnType) : Prop :=
  ∃ type, made = some type ∧ type.isUndef = false

theorem isSome_tupleFromNode_cons (child : ClassTree) (children : List ClassTree) :
    (tupleFromNode (child :: children)).isSome ↔
      Builds (createType child children) ∧ (tupleFromNode children).isSome := by
  rw [tupleFromNode]
  cases createType child children with
  | none => simp [Builds]
  | some type =>
      cases tupleFromNode children with
      | none => simp [Builds]
      | some types => cases undef : type.isUndef <;> simp [Builds, undef]

theorem unwrapped_own {name : List UInt8} (own : isWrapper name = false)
    (children : List ClassTree) :
    (ClassTree.node name children).unwrapped = some (.node name children) := by
  unfold ClassTree.unwrapped
  rw [own, if_neg Bool.false_ne_true]

theorem unwrapped_wrapper {name : List UInt8} (wraps : isWrapper name = true)
    (child : ClassTree) (others : List ClassTree) :
    (ClassTree.node name (child :: others)).unwrapped = child.unwrapped := by
  rw [ClassTree.unwrapped, if_pos wraps]

/-- Behind the wrappers there is a class, of which a type is made. -/
theorem isUndef_own {name : List UInt8} (own : isWrapper name = false)
    {children siblings : List ClassTree} {type : ColumnType}
    (made : createType (.node name children) siblings = some type) : type.isUndef = false := by
  unfold createType at made
  rw [own, if_neg Bool.false_ne_true] at made
  cases kind : lookupType name with
  | scalar _ | custom =>
      rw [kind] at made
      obtain rfl := Option.some.inj made
      rfl
  | tuple =>
      rw [kind] at made
      obtain ⟨_, _, rfl⟩ := Option.map_eq_some_iff.mp made
      rfl
  | list | set =>
      rw [kind] at made
      cases children with
      | nil =>
          obtain rfl := Option.some.inj made
          rfl
      | cons value others =>
          obtain ⟨_, _, rfl⟩ := Option.map_eq_some_iff.mp made
          rfl
  | map =>
      rw [kind] at made
      cases children with
      | nil =>
          obtain rfl := Option.some.inj made
          rfl
      | cons key others =>
          cases others with
          | nil =>
              obtain ⟨_, _, rfl⟩ := Option.map_eq_some_iff.mp made
              rfl
          | cons value others =>
              dsimp only at made
              split at made
              · obtain rfl := Option.some.inj made
                rfl
              · cases made
  | userType =>
      rw [kind] at made
      cases children with
      | nil =>
          obtain rfl := Option.some.inj made
          rfl
      | cons keyspace others =>
          cases others with
          | nil =>
              obtain rfl := Option.some.inj made
              rfl
          | cons typeName fields =>
              obtain ⟨_, _, rfl⟩ := Option.map_eq_some_iff.mp made
              rfl

theorem isUndef_createType : ∀ {tree : ClassTree} {siblings : List ClassTree}
    {type : ColumnType}, createType tree siblings = some type →
      (type.isUndef = false ↔ tree.unwrapped.isSome)
  | .node name [], siblings, type, made => by
      cases wraps : isWrapper name with
      | true =>
          rw [createType, if_pos wraps] at made
          obtain rfl := Option.some.inj made
          rw [ClassTree.unwrapped, if_pos wraps]
          decide
      | false => simp [isUndef_own wraps made, unwrapped_own wraps]
  | .node name (child :: others), siblings, type, made => by
      cases wraps : isWrapper name with
      | true =>
          rw [createType, if_pos wraps] at made
          rw [unwrapped_wrapper wraps]
          exact isUndef_createType made
      | false => simp [isUndef_own wraps made, unwrapped_own wraps]

theorem builds_iff {tree : ClassTree} {siblings : List ClassTree} :
    Builds (createType tree siblings) ↔
      (createType tree siblings).isSome ∧ tree.unwrapped.isSome := by
  constructor
  · rintro ⟨type, made, defined⟩
    exact ⟨made ▸ rfl, (isUndef_createType made).mp defined⟩
  · rintro ⟨some, present⟩
    obtain ⟨type, made⟩ := Option.isSome_iff_exists.mp some
    exact ⟨type, made, (isUndef_createType made).mpr present⟩

theorem isSome_map_match (key value : Option ColumnType) :
    (match key, value with
      | some key, some value => some (ColumnType.map key value)
      | _, _ => none).isSome ↔ key.isSome ∧ value.isSome := by
  cases key <;> cases value <;> simp

mutual

theorem isSome_createType : ∀ (tree : ClassTree) (siblings : List ClassTree),
    (createType tree siblings).isSome ↔ tree.Buildable
  | .node name [], siblings => by
      unfold createType ClassTree.Buildable
      cases wraps : isWrapper name with
      | true => simp
      | false =>
          cases kind : lookupType name <;> simp [tupleFromNode, AllBuildable]
  | .node name [only], siblings => by
      have child := isSome_createType only []
      have tuple := isSome_tupleFromNode [only]
      unfold createType ClassTree.Buildable
      cases wraps : isWrapper name with
      | true => simpa using child
      | false =>
          cases kind : lookupType name with
          | scalar _ | custom | userType => simp
          | list | set | map => simpa using child
          | tuple => simpa using tuple
  | .node name (first :: second :: others), siblings => by
      have firstSome := isSome_createType first (second :: others)
      have secondSome := isSome_createType second others
      have tuple := isSome_tupleFromNode (first :: second :: others)
      have fields := isSome_userTypeFromNode others []
      unfold createType ClassTree.Buildable
      cases wraps : isWrapper name with
      | true => simpa using firstSome
      | false =>
          cases kind : lookupType name with
          | scalar _ | custom => simp
          | list | set => simpa using firstSome
          | map => exact (isSome_map_match _ _).trans (and_congr firstSome secondSome)
          | tuple => simpa using tuple
          | userType => simpa using fields

theorem isSome_tupleFromNode : ∀ children : List ClassTree,
    (tupleFromNode children).isSome ↔ AllBuildable children
  | [] => by simp [tupleFromNode, AllBuildable]
  | child :: children => by
      rw [isSome_tupleFromNode_cons, builds_iff, isSome_createType child children,
        isSome_tupleFromNode children, AllBuildable, and_assoc]

theorem isSome_userTypeFromNode : ∀ (fields : List ClassTree)
    (types : OrderedMap (List UInt8) ColumnType),
    (userTypeFromNode types fields).isSome ↔ FieldsBuildable fields
  | [], types => by simp [userTypeFromNode, FieldsBuildable]
  | [_], types => by simp [userTypeFromNode, FieldsBuildable]
  | name :: current :: others, types => by
      have builds := @builds_iff current others
      rw [isSome_createType current others] at builds
      rw [FieldsBuildable, ← isSome_fromHex_iff]
      constructor
      · intro some
        obtain ⟨result, made⟩ := Option.isSome_iff_exists.mp some
        obtain ⟨fieldName, type, decoded, created, defined, rest⟩ :=
          userTypeFromNode_cons_cons_eq_some_iff.mp made
        have present := builds.mp ⟨type, created, defined⟩
        exact ⟨decoded ▸ rfl, present.1, present.2,
          (isSome_userTypeFromNode others _).mp (Option.isSome_iff_exists.mpr ⟨result, rest⟩)⟩
      · rintro ⟨decodes, buildable, present, inside⟩
        obtain ⟨fieldName, decoded⟩ := Option.isSome_iff_exists.mp decodes
        obtain ⟨type, created, defined⟩ := builds.mpr ⟨buildable, present⟩
        obtain ⟨result, rest⟩ := Option.isSome_iff_exists.mp ((isSome_userTypeFromNode others
          (userTypeAdd types (cString fieldName) type)).mpr inside)
        rw [userTypeFromNode_cons_cons_eq_some_iff.mpr
          ⟨fieldName, type, decoded, created, defined, rest⟩]
        rfl

end

mutual

theorem makes_createType : ∀ (tree : ClassTree) (siblings : List ClassTree),
    Makes (createType tree siblings) ↔ tree.Complete
  | .node name [], siblings => by
      unfold createType ClassTree.Complete
      cases wraps : isWrapper name with
      | true => simp
      | false =>
          cases kind : lookupType name <;>
            simp [tupleFromNode, AllComplete]
  | .node name [only], siblings => by
      have child := makes_createType only []
      have tuple := makes_tupleFromNode [only]
      unfold createType ClassTree.Complete
      cases wraps : isWrapper name with
      | true => simpa using child
      | false =>
          cases kind : lookupType name with
          | scalar _ | custom | userType => simp
          | list => simpa [makes_list_iff] using child
          | set => simpa [makes_set_iff] using child
          | map => exact iff_of_false (not_makes_half_map _) id
          | tuple => simpa [makes_tuple_iff] using tuple
  | .node name (first :: second :: others), siblings => by
      have firstMakes := makes_createType first (second :: others)
      have secondMakes := makes_createType second others
      have tuple := makes_tupleFromNode (first :: second :: others)
      have fields := @makes_userTypeFromNode others [] (by simp)
      unfold createType ClassTree.Complete
      cases wraps : isWrapper name with
      | true => simpa using firstMakes
      | false =>
          cases kind : lookupType name with
          | scalar _ | custom => simp
          | list => simpa [makes_list_iff] using firstMakes
          | set => simpa [makes_set_iff] using firstMakes
          | map => exact (makes_map_iff _ _).trans (and_congr firstMakes secondMakes)
          | tuple => simpa [makes_tuple_iff] using tuple
          | userType =>
              apply (makes_userType_iff _ _ _).trans
              rw [fields, Option.isSome_map, isSome_fromHex_iff]
              rfl

theorem makes_tupleFromNode : ∀ children : List ClassTree,
    MakesAll (tupleFromNode children) ↔ AllComplete children
  | [] => by simp [MakesAll, tupleFromNode, AllComplete]
  | child :: children => by
      rw [makesAll_cons_iff, makes_createType child children, makes_tupleFromNode children,
        AllComplete]

theorem makes_userTypeFromNode : ∀ (fields : List ClassTree)
    {types : OrderedMap (List UInt8) ColumnType}, ColumnType.FieldsWellFormed types →
    (MakesFields (userTypeFromNode types fields) ↔ FieldsComplete types.keys fields)
  | [], types, wellFormed => by
      rw [userTypeFromNode]
      exact iff_of_true ⟨types, rfl, wellFormed⟩ (by simp [FieldsComplete])
  | [_], types, wellFormed => by
      rw [userTypeFromNode]
      exact iff_of_true ⟨types, rfl, wellFormed⟩ (by simp [FieldsComplete])
  | name :: current :: others, types, wellFormed => by
      have first := makes_createType current others
      have builds := @builds_iff current others
      rw [isSome_createType current others] at builds
      have keys (fieldName : List UInt8) (type : ColumnType) :
          OrderedMap.keys (types ++ [(fieldName, type)]) = types.keys ++ [fieldName] := by
        simp [OrderedMap.keys]
      rw [FieldsComplete]
      simp only [List.contains_iff_mem]
      constructor
      · rintro ⟨result, made, whole⟩
        obtain ⟨decodedName, type, decoded, created, defined, rest⟩ :=
          userTypeFromNode_cons_cons_eq_some_iff.mp made
        have named : name.fieldName = cString decodedName := by rw [fieldName, decoded]; rfl
        refine ⟨(isSome_fromHex_iff _).mp (Option.isSome_iff_exists.mpr ⟨_, decoded⟩), ?_⟩
        rw [named]
        rw [userTypeAdd] at rest
        split at rest
        · rename_i old
          rw [if_pos old]
          have present := builds.mp ⟨type, created, defined⟩
          exact ⟨present.1, present.2,
            (makes_userTypeFromNode others wellFormed).mp ⟨result, rest, whole⟩⟩
        · rename_i new
          rw [if_neg new, ← keys _ type]
          have kept := (userTypeFromNode_keeps rest).1
          have wholeType : type.WellFormed :=
            (fieldsWellFormed_iff result).mp whole (cString decodedName, type)
              (kept.subset (by simp))
          have grown := fieldsWellFormed_append wellFormed (cString decodedName) wholeType
          exact ⟨first.mp ⟨type, created, wholeType⟩,
            (makes_userTypeFromNode others grown).mp ⟨result, rest, whole⟩⟩
      · rintro ⟨decodes, inside⟩
        obtain ⟨decodedName, decoded⟩ :=
          Option.isSome_iff_exists.mp ((isSome_fromHex_iff _).mpr decodes)
        have named : name.fieldName = cString decodedName := by rw [fieldName, decoded]; rfl
        rw [named] at inside
        split at inside
        · rename_i old
          obtain ⟨type, created, defined⟩ := builds.mpr ⟨inside.1, inside.2.1⟩
          obtain ⟨result, made, whole⟩ :=
            (makes_userTypeFromNode others wellFormed).mpr inside.2.2
          refine ⟨result, userTypeFromNode_cons_cons_eq_some_iff.mpr
            ⟨decodedName, type, decoded, created, defined, ?_⟩, whole⟩
          rw [userTypeAdd, if_pos old, made]
        · rename_i new
          obtain ⟨type, created, wholeType⟩ := first.mpr inside.1
          have rest := inside.2
          rw [← keys _ type] at rest
          have grown := fieldsWellFormed_append wellFormed (cString decodedName) wholeType
          obtain ⟨result, made, whole⟩ := (makes_userTypeFromNode others grown).mpr rest
          refine ⟨result, userTypeFromNode_cons_cons_eq_some_iff.mpr
            ⟨decodedName, type, decoded, created, wholeType.defined, ?_⟩, whole⟩
          rw [userTypeAdd, if_neg new, made]

end

theorem sound_own {name : List UInt8} (own : isWrapper name = false)
    (children siblings : List ClassTree) (reversed frozen : Bool) :
    (columnType reversed frozen (.node name children) siblings).Sound ↔
      (ClassTree.node name children).Complete := by
  rw [← makes_createType _ siblings, @columnType_own (.node name children) own]
  cases createType (.node name children) siblings <;> simp [ColumnResult.Sound]

theorem columnType_sound : ∀ (tree : ClassTree) (siblings : List ClassTree)
    (reversed frozen : Bool),
    (columnType reversed frozen tree siblings).Sound ↔
      ∀ inner, tree.unwrapped = some inner → inner.Complete
  | .node name [], siblings, reversed, frozen => by
      cases wraps : isWrapper name with
      | true =>
          rw [columnType_bare wraps, ClassTree.unwrapped, if_pos wraps]
          simp [ColumnResult.Sound]
      | false => rw [sound_own wraps, unwrapped_own wraps]; simp
  | .node name (child :: others), siblings, reversed, frozen => by
      cases wraps : isWrapper name with
      | true =>
          obtain ⟨wasReversed, wasFrozen, same⟩ :=
            columnType_wrapper wraps child others siblings reversed frozen
          rw [unwrapped_wrapper wraps, same]
          exact columnType_sound child others wasReversed wasFrozen
      | false => rw [sound_own wraps, unwrapped_own wraps]; simp

end PhpDriver
