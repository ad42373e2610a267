import PhpDriver.Util.OwnHandlers

namespace PhpDriver

open Data

/-! The values of a Cassandra type: what the setters of containers accept, at every depth. -/

namespace PhpValue

mutual

/-- The value without its tables. -/
def zval : PhpValue → Zval
  | .null => .null
  | .scalar value => .scalar value
  | .collection valueType values => .collection valueType (zvals values)
  | .set valueType _ values => .set valueType (zvals values)
  | .map keyType valueType _ entries => .map keyType valueType (entryZvals entries)
  | .tuple types values => .tuple types (indexedZvals values)
  | .userTypeValue types values => .userTypeValue types (namedZvals values)

def zvals : List PhpValue → List Zval
  | [] => []
  | value :: values => zval value :: zvals values

def entryZvals : List (PhpValue × PhpValue) → List (Zval × Zval)
  | [] => []
  | (key, value) :: entries => (zval key, zval value) :: entryZvals entries

def indexedZvals : List (Nat × PhpValue) → List (Nat × Zval)
  | [] => []
  | (index, value) :: values => (index, zval value) :: indexedZvals values

def namedZvals : List (List UInt8 × PhpValue) → List (List UInt8 × Zval)
  | [] => []
  | (name, value) :: values => (name, zval value) :: namedZvals values

end

def Accepts (type : CassType) (value : PhpValue) : Prop :=
  validateObject value.zval type = .accepted

end PhpValue

open PhpValue

/-- The chains hold every entry, and a key was added only when the search for it failed. -/
structure Chains.Holds (chains : Chains) (keys : List PhpValue) : Prop where
  order : chains.order.Perm (List.range keys.length)
  initial : utInitialLog2 ≤ chains.log2NumBuckets
  distinct : keys.Pairwise fun key later => ¬ Matches chains.log2NumBuckets key later

namespace PhpValue

inductive Sound : PhpValue → Prop
  | null : Sound .null
  | scalar (value : Scalar) : Sound (.scalar value)
  | collection {valueType : CassType} {values : List PhpValue}
      (sound : ∀ value ∈ values, Sound value)
      (accepted : ∀ value ∈ values, Accepts valueType value) :
      Sound (.collection valueType values)
  | set {valueType : CassType} {chains : Chains} {values : List PhpValue}
      (sound : ∀ value ∈ values, Sound value)
      (accepted : ∀ value ∈ values, Accepts valueType value)
      (nonnull : ∀ value ∈ values, value ≠ .null) (table : chains.Holds values) :
      Sound (.set valueType chains values)
  | map {keyType valueType : CassType} {chains : Chains} {entries : List (PhpValue × PhpValue)}
      (keys : ∀ entry ∈ entries, Sound entry.1) (values : ∀ entry ∈ entries, Sound entry.2)
      (accepted : ∀ entry ∈ entries, Accepts keyType entry.1 ∧ Accepts valueType entry.2)
      (nonnull : ∀ entry ∈ entries, entry.1 ≠ .null ∧ entry.2 ≠ .null)
      (table : chains.Holds (entries.map Prod.fst)) :
      Sound (.map keyType valueType chains entries)
  | tuple {types : List CassType} {values : List (Nat × PhpValue)}
      (nodup : (values.map Prod.fst).Nodup) (sound : ∀ field ∈ values, Sound field.2)
      (accepted : ∀ field ∈ values, ∃ type, types[field.1]? = some type ∧ Accepts type field.2) :
      Sound (.tuple types values)
  | userTypeValue {types : List (List UInt8 × CassType)} {values : List (List UInt8 × PhpValue)}
      (nodup : (values.map Prod.fst).Nodup) (sound : ∀ field ∈ values, Sound field.2)
      (accepted : ∀ field ∈ values, ∃ type, (field.1, type) ∈ types ∧ Accepts type field.2) :
      Sound (.userTypeValue types values)

structure OfType (type : CassType) (value : PhpValue) : Prop where
  sound : Sound value
  accepted : Accepts type value

theorem ownType_zval (value : PhpValue) : value.zval.ownType = value.ownType := by
  cases value <;> rfl

theorem OfType.congr {first second : CassType} (same : first.canonical = second.canonical)
    {value : PhpValue} : OfType first value ↔ OfType second value := by
  constructor
  · intro typed
    exact ⟨typed.sound, (validateObject_congr same).mp typed.accepted⟩
  · intro typed
    exact ⟨typed.sound, (validateObject_congr same).mpr typed.accepted⟩

theorem ofType_null (type : CassType) : OfType type .null :=
  ⟨.null, validateObject_null type⟩

theorem accepts_iff_of_ownType {value : PhpValue} {own : CassType}
    (container : value.ownType = some own) (type : CassType) :
    Accepts type value ↔ own.canonical = type.canonical := by
  apply validateObject_container_iff
  rw [ownType_zval, container]

theorem ofType_scalar_iff {type : CassType} {value : Scalar} :
    OfType type (.scalar value) ↔ ∃ scalarType, type = .scalar scalarType ∧
      scalarType.isInstance value := by
  rw [← validateObject_scalar_iff]
  exact ⟨OfType.accepted, fun accepted => ⟨.scalar value, accepted⟩⟩

theorem OfType.form {type : CassType} {value : PhpValue} (typed : OfType type value)
    (nonnull : value ≠ .null) :
    (∃ scalarType scalar, type = .scalar scalarType ∧ value = .scalar scalar ∧
      scalarType.isInstance scalar) ∨
    ∃ own, value.ownType = some own ∧ own.canonical = type.canonical := by
  cases value with
  | null => exact absurd rfl nonnull
  | scalar scalar =>
      obtain ⟨scalarType, rfl, instance_⟩ := ofType_scalar_iff.mp typed
      exact Or.inl ⟨scalarType, scalar, rfl, rfl, instance_⟩
  | _ => exact Or.inr ⟨_, rfl, (accepts_iff_of_ownType rfl type).mp typed.accepted⟩

theorem ofType_collection_iff {own expected : CassType} {values : List PhpValue} :
    OfType (.list expected) (.collection own values) ↔
      own.canonical = expected.canonical ∧ ∀ value ∈ values, OfType expected value := by
  constructor
  · intro typed
    have same := typed.accepted
    rw [accepts_iff_of_ownType rfl, CassType.canonical, CassType.canonical,
      CassType.list.injEq] at same
    cases typed.sound with
    | collection sound accepted =>
        refine ⟨same, ?_⟩
        intro value member
        exact (OfType.congr same).mp ⟨sound value member, accepted value member⟩
  · rintro ⟨same, typed⟩
    have own_typed (value : PhpValue) (member : value ∈ values) : OfType own value :=
      (OfType.congr same).mpr (typed value member)
    refine ⟨.collection (fun value member => (own_typed value member).sound)
      (fun value member => (own_typed value member).accepted), ?_⟩
    rw [accepts_iff_of_ownType rfl, CassType.canonical, CassType.canonical, same]

theorem ofType_set_iff {own expected : CassType} {chains : Chains} {values : List PhpValue} :
    OfType (.set expected) (.set own chains values) ↔
      own.canonical = expected.canonical ∧ chains.Holds values ∧
        ∀ value ∈ values, OfType expected value ∧ value ≠ .null := by
  constructor
  · intro typed
    have same := typed.accepted
    rw [accepts_iff_of_ownType rfl, CassType.canonical, CassType.canonical,
      CassType.set.injEq] at same
    cases typed.sound with
    | set sound accepted nonnull table =>
        refine ⟨same, table, ?_⟩
        intro value member
        exact ⟨(OfType.congr same).mp ⟨sound value member, accepted value member⟩,
          nonnull value member⟩
  · rintro ⟨same, table, typed⟩
    have own_typed (value : PhpValue) (member : value ∈ values) : OfType own value :=
      (OfType.congr same).mpr (typed value member).1
    refine ⟨.set (fun value member => (own_typed value member).sound)
      (fun value member => (own_typed value member).accepted)
      (fun value member => (typed value member).2) table, ?_⟩
    rw [accepts_iff_of_ownType rfl, CassType.canonical, CassType.canonical, same]

theorem ofType_map_iff {ownKey ownValue expectedKey expectedValue : CassType} {chains : Chains}
    {entries : List (PhpValue × PhpValue)} :
    OfType (.map expectedKey expectedValue) (.map ownKey ownValue chains entries) ↔
      (ownKey.canonical = expectedKey.canonical ∧ ownValue.canonical = expectedValue.canonical) ∧
        chains.Holds (entries.map Prod.fst) ∧
        ∀ entry ∈ entries, (OfType expectedKey entry.1 ∧ entry.1 ≠ .null) ∧
          OfType expectedValue entry.2 ∧ entry.2 ≠ .null := by
  constructor
  · intro typed
    have same := typed.accepted
    rw [accepts_iff_of_ownType rfl, CassType.canonical, CassType.canonical,
      CassType.map.injEq] at same
    cases typed.sound with
    | map keys values accepted nonnull table =>
        refine ⟨same, table, ?_⟩
        intro entry member
        exact ⟨⟨(OfType.congr same.1).mp ⟨keys entry member, (accepted entry member).1⟩,
          (nonnull entry member).1⟩,
          (OfType.congr same.2).mp ⟨values entry member, (accepted entry member).2⟩,
          (nonnull entry member).2⟩
  · rintro ⟨same, table, typed⟩
    have key_typed (entry : PhpValue × PhpValue) (member : entry ∈ entries) :
        OfType ownKey entry.1 := (OfType.congr same.1).mpr (typed entry member).1.1
    have value_typed (entry : PhpValue × PhpValue) (member : entry ∈ entries) :
        OfType ownValue entry.2 := (OfType.congr same.2).mpr (typed entry member).2.1
    refine ⟨.map (fun entry member => (key_typed entry member).sound)
      (fun entry member => (value_typed entry member).sound)
      (fun entry member => ⟨(key_typed entry member).accepted, (value_typed entry member).accepted⟩)
      (fun entry member => ⟨(typed entry member).1.2, (typed entry member).2.2⟩) table, ?_⟩
    rw [accepts_iff_of_ownType rfl, CassType.canonical, CassType.canonical, same.1, same.2]

theorem exists_alias {own expected : List CassType}
    (same : CassType.canonicals own = CassType.canonicals expected) {index : Nat} {type : CassType}
    (at_ : own[index]? = some type) :
    ∃ other, expected[index]? = some other ∧ type.canonical = other.canonical := by
  rw [CassType.canonicals_eq_map, CassType.canonicals_eq_map] at same
  have canonical := congrArg (·[index]?) same
  simp only [List.getElem?_map, at_, Option.map_some] at canonical
  obtain ⟨other, there, aliased⟩ := Option.map_eq_some_iff.mp canonical.symm
  exact ⟨other, there, aliased.symm⟩

theorem exists_field_alias {own expected : List (List UInt8 × CassType)}
    (same : CassType.canonicalFields own = CassType.canonicalFields expected) {name : List UInt8}
    {type : CassType} (member : (name, type) ∈ own) :
    ∃ other, (name, other) ∈ expected ∧ type.canonical = other.canonical := by
  rw [CassType.canonicalFields_eq_map, CassType.canonicalFields_eq_map] at same
  have canonical := List.mem_map_of_mem (f := fun field => (field.1, field.2.canonical)) member
  rw [same] at canonical
  obtain ⟨⟨_, other⟩, there, equal⟩ := List.mem_map.mp canonical
  obtain ⟨rfl, aliased⟩ := Prod.mk.inj equal
  exact ⟨other, there, aliased.symm⟩

theorem ofType_tuple_iff {own expected : List CassType} {values : List (Nat × PhpValue)} :
    OfType (.tuple expected) (.tuple own values) ↔
      CassType.canonicals own = CassType.canonicals expected ∧ (values.map Prod.fst).Nodup ∧
        ∀ field ∈ values, ∃ type, expected[field.1]? = some type ∧ OfType type field.2 := by
  constructor
  · intro typed
    have same := typed.accepted
    rw [accepts_iff_of_ownType rfl, CassType.canonical, CassType.canonical,
      CassType.tuple.injEq] at same
    cases typed.sound with
    | tuple nodup sound accepted =>
        refine ⟨same, nodup, ?_⟩
        intro field member
        obtain ⟨type, at_, accepts⟩ := accepted field member
        obtain ⟨other, there, aliased⟩ := exists_alias same at_
        exact ⟨other, there, (OfType.congr aliased).mp ⟨sound field member, accepts⟩⟩
  · rintro ⟨same, nodup, typed⟩
    refine ⟨.tuple nodup ?_ ?_, ?_⟩
    · intro field member
      obtain ⟨type, _, fieldTyped⟩ := typed field member
      exact fieldTyped.sound
    · intro field member
      obtain ⟨type, at_, fieldTyped⟩ := typed field member
      obtain ⟨other, there, aliased⟩ := exists_alias same.symm at_
      exact ⟨other, there, ((OfType.congr aliased).mp fieldTyped).accepted⟩
    · rw [accepts_iff_of_ownType rfl, CassType.canonical, CassType.canonical, same]

theorem ofType_userTypeValue_iff {own expected : List (List UInt8 × CassType)}
    {values : List (List UInt8 × PhpValue)} :
    OfType (.userType expected) (.userTypeValue own values) ↔
      CassType.canonicalFields own = CassType.canonicalFields expected ∧
        (values.map Prod.fst).Nodup ∧
        ∀ field ∈ values, ∃ type, (field.1, type) ∈ expected ∧ OfType type field.2 := by
  constructor
  · intro typed
    have same := typed.accepted
    rw [accepts_iff_of_ownType rfl, CassType.canonical, CassType.canonical,
      CassType.userType.injEq] at same
    cases typed.sound with
    | userTypeValue nodup sound accepted =>
        refine ⟨same, nodup, ?_⟩
        intro field member
        obtain ⟨type, known, accepts⟩ := accepted field member
        obtain ⟨other, there, aliased⟩ := exists_field_alias same known
        exact ⟨other, there, (OfType.congr aliased).mp ⟨sound field member, accepts⟩⟩
  · rintro ⟨same, nodup, typed⟩
    refine ⟨.userTypeValue nodup ?_ ?_, ?_⟩
    · intro field member
      obtain ⟨type, _, fieldTyped⟩ := typed field member
      exact fieldTyped.sound
    · intro field member
      obtain ⟨type, known, fieldTyped⟩ := typed field member
      obtain ⟨other, there, aliased⟩ := exists_field_alias same.symm known
      exact ⟨other, there, ((OfType.congr aliased).mp fieldTyped).accepted⟩
    · rw [accepts_iff_of_ownType rfl, CassType.canonical, CassType.canonical, same]

end PhpValue

end PhpDriver
