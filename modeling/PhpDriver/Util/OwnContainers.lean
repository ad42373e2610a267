import PhpDriver.Util.OwnSamples

namespace PhpDriver

open Data

/-! Containers of one type, and when their comparison comes down to that of their elements. -/

namespace PhpValue

theorem zType_eq_one_iff {value : PhpValue} : value.zType = 1 ↔ value = .null := by
  cases value with
  | scalar value =>
      refine iff_of_false ?_ (by simp)
      cases value with
      | bool flag => cases flag <;> decide
      | _ => simp [zType_scalar, Scalar.zType, Zval.zType]
  | _ => simp [zType]

theorem ne_null_of_object {value : PhpValue} (object : value.zType = 8) : value ≠ .null := by
  rintro rfl
  cases object

theorem zType_eq_eight_iff (value : PhpValue) :
    value.zType = 8 ↔ value.zval.valueClass.isSome := by
  cases value with
  | null => simp [zType, zval, Zval.valueClass]
  | scalar value =>
      cases value with
      | bool flag => cases flag <;> simp [zType, Scalar.zType, Zval.zType, zval, Zval.valueClass,
          Scalar.valueClass]
      | _ => simp [zType, Scalar.zType, Zval.zType, zval, Zval.valueClass, Scalar.valueClass]
  | _ => simp [zType, zval, Zval.valueClass]

theorem ownCompare_of_valueClass {first second : PhpValue} {own other : ValueClass}
    (firstClass : first.zval.valueClass = some own)
    (secondClass : second.zval.valueClass = some other) (apart : own ≠ other) :
    ownCompare first second = 1 := by
  have types : first.zType = second.zType := by
    rw [(zType_eq_eight_iff _).mpr (by simp [firstClass]), (zType_eq_eight_iff _).mpr (by simp [secondClass])]
  cases first with
  | null => cases firstClass
  | scalar first =>
      cases second with
      | null => cases secondClass
      | scalar second =>
          rw [ownCompare_scalar types]
          exact Scalar.compareAlike_of_valueClass firstClass secondClass apart
      | _ => simp [ownCompare, types]
  | _ =>
      cases second with
      | null => cases secondClass
      | scalar second => simp [ownCompare, ← types]
      | _ =>
          first
            | exact absurd (Option.some.inj (firstClass.symm.trans secondClass)) apart
            | simp [ownCompare]

theorem isInstance_valueClass {type : ScalarType} {value : Scalar}
    (instance_ : type.isInstance value) : value.valueClass = type.sample.valueClass := by
  cases type.instance_of instance_ <;> rfl

end PhpValue

def CassType.objectClass (type : CassType) : Option ValueClass :=
  (PhpValue.sample type).zval.valueClass

namespace PhpValue

theorem OfType.valueClass_eq {type : CassType} {value : PhpValue} (typed : OfType type value)
    (nonnull : value ≠ .null) : value.zval.valueClass = type.objectClass := by
  rcases typed.form nonnull with ⟨scalarType, scalar, rfl, rfl, instance_⟩ | ⟨own, known, same⟩
  · exact isInstance_valueClass instance_
  · cases value with
    | null | scalar _ => cases known
    | _ =>
        obtain rfl := Option.some.inj known
        cases type <;> first | rfl | cases same

theorem valueType_of_valueClass {first second : PhpValue} {own other : CassType}
    (firstOwn : first.ownType = some own) (secondOwn : second.ownType = some other)
    (sameClass : first.zval.valueClass = second.zval.valueClass) :
    own.valueType = other.valueType := by
  cases first with
  | null | scalar _ => cases firstOwn
  | _ =>
      obtain rfl := Option.some.inj firstOwn
      cases second with
      | null | scalar _ => cases secondOwn
      | _ =>
          obtain rfl := Option.some.inj secondOwn
          first
            | rfl
            | cases sameClass

theorem valueType_of_canonical {first second : PhpValue} {own other : CassType}
    (firstOwn : first.ownType = some own) (secondOwn : second.ownType = some other)
    (same : own.canonical = other.canonical) : own.valueType = other.valueType := by
  cases first with
  | null | scalar _ => cases firstOwn
  | _ =>
      obtain rfl := Option.some.inj firstOwn
      cases second with
      | null | scalar _ => cases secondOwn
      | _ =>
          obtain rfl := Option.some.inj secondOwn
          first
            | rfl
            | cases same

theorem isSome_valueClass_of_container {value : PhpValue} (container : value.ownType.isSome) :
    value.zval.valueClass.isSome := by
  cases value with
  | null | scalar _ => cases container
  | _ => rfl

theorem ownType_of_valueClass {first second : PhpValue} (container : first.ownType.isSome)
    (sameClass : first.zval.valueClass = second.zval.valueClass) : second.ownType.isSome := by
  cases second with
  | null =>
      cases first with
      | null | scalar _ => cases container
      | _ => cases sameClass
  | scalar value =>
      cases first with
      | null | scalar _ => cases container
      | _ => cases value <;> cases sameClass
  | _ => rfl

structure IsContainer (type : CassType) (value : PhpValue) : Prop where
  typed : OfType type value
  container : value.ownType.isSome

theorem IsContainer.exists_ownType {type : CassType} {value : PhpValue}
    (container : IsContainer type value) :
    ∃ own, value.ownType = some own ∧ own.canonical = type.canonical := by
  obtain ⟨own, known⟩ := Option.isSome_iff_exists.mp container.container
  exact ⟨own, known, (accepts_iff_of_ownType known type).mp container.typed.accepted⟩

theorem ownCompare_of_type {type : CassType} {first second : PhpValue}
    (firstIs : IsContainer type first) (secondIs : IsContainer type second) :
    ownCompare first second =
      thenCompare (compareNat first.elements.length second.elements.length)
        (contentCompare first second) := by
  obtain ⟨own, firstOwn, firstSame⟩ := firstIs.exists_ownType
  obtain ⟨other, secondOwn, secondSame⟩ := secondIs.exists_ownType
  have same : own.canonical = other.canonical := by rw [firstSame, secondSame]
  rw [ownCompare_containers firstOwn secondOwn (valueType_of_canonical firstOwn secondOwn same),
    (typeCompare_eq_zero_iff own other).mpr same,
    thenCompare_zero_left]

theorem OfType.isContainer {type : CassType} (container : ∀ scalar, type ≠ .scalar scalar)
    {value : PhpValue} (typed : OfType type value) (nonnull : value ≠ .null) :
    IsContainer type value := by
  rcases typed.form nonnull with ⟨scalarType, _, rfl, _⟩ | ⟨own, known, _⟩
  · exact absurd rfl (container scalarType)
  · exact ⟨typed, by rw [known]; rfl⟩

theorem IsContainer.list {valueType : CassType} {value : PhpValue}
    (is : IsContainer (.list valueType) value) :
    ∃ own values, value = .collection own values ∧
      ∀ element ∈ values, OfType valueType element := by
  cases value with
  | collection own values => exact ⟨own, values, rfl, (ofType_collection_iff.mp is.typed).2⟩
  | null | scalar _ => cases is.container
  | _ => cases is.typed.accepted

theorem IsContainer.set {valueType : CassType} {value : PhpValue}
    (is : IsContainer (.set valueType) value) :
    ∃ own chains values, value = .set own chains values ∧ chains.Holds values ∧
      ∀ element ∈ values, OfType valueType element ∧ element ≠ .null := by
  cases value with
  | set own chains values => exact ⟨own, chains, values, rfl, (ofType_set_iff.mp is.typed).2⟩
  | null | scalar _ => cases is.container
  | _ => cases is.typed.accepted

theorem IsContainer.map {keyType valueType : CassType} {value : PhpValue}
    (is : IsContainer (.map keyType valueType) value) :
    ∃ ownKey own chains entries, value = .map ownKey own chains entries ∧
      chains.Holds (entries.map Prod.fst) ∧
      ∀ entry ∈ entries, (OfType keyType entry.1 ∧ entry.1 ≠ .null) ∧
        OfType valueType entry.2 ∧ entry.2 ≠ .null := by
  cases value with
  | map ownKey own chains entries =>
      exact ⟨ownKey, own, chains, entries, rfl, (ofType_map_iff.mp is.typed).2⟩
  | null | scalar _ => cases is.container
  | _ => cases is.typed.accepted

theorem IsContainer.tuple {types : List CassType} {value : PhpValue}
    (is : IsContainer (.tuple types) value) :
    ∃ own values, value = .tuple own values ∧
      ∀ field ∈ values, ∃ type, types[field.1]? = some type ∧ OfType type field.2 := by
  cases value with
  | tuple own values => exact ⟨own, values, rfl, (ofType_tuple_iff.mp is.typed).2.2⟩
  | null | scalar _ => cases is.container
  | _ => cases is.typed.accepted

theorem IsContainer.userType {types : List (List UInt8 × CassType)} {value : PhpValue}
    (is : IsContainer (.userType types) value) :
    ∃ own values, value = .userTypeValue own values ∧
      ∀ field ∈ values, ∃ type, (field.1, type) ∈ types ∧ OfType type field.2 := by
  cases value with
  | userTypeValue own values =>
      exact ⟨own, values, rfl, (ofType_userTypeValue_iff.mp is.typed).2.2⟩
  | null | scalar _ => cases is.container
  | _ => cases is.typed.accepted

/-! A type with one value at most has empty containers for values, if any. -/

theorem eq_null_of_uninhabited {type : CassType} (uninhabited : type.isInhabited = false)
    {value : PhpValue} (typed : OfType type value) : value = .null := by
  by_contra nonnull
  cases type with
  | custom _ =>
      have is := typed.isContainer (by simp) nonnull
      cases value with
      | null | scalar _ => cases is.container
      | _ => cases typed.accepted
  | _ => cases uninhabited

theorem isInhabited_of_isSeveral {type : CassType} (several : type.isSeveral) :
    type.isInhabited := by
  cases type with
  | custom _ => cases several
  | _ => rfl

theorem few_empty {type : CassType} (few : type.isSeveral = false) {value : PhpValue}
    (typed : OfType type value) (nonnull : value ≠ .null) :
    IsContainer type value ∧ value.elements = [] ∧ value.ownHash = 0 := by
  cases type with
  | scalar _ | list _ => cases few
  | custom _ => exact absurd (eq_null_of_uninhabited rfl typed) nonnull
  | set valueType =>
      have is := typed.isContainer (by simp) nonnull
      obtain ⟨own, chains, values, rfl, _, elements⟩ := is.set
      have empty : values = [] := by
        apply List.eq_nil_iff_forall_not_mem.mpr
        intro element member
        exact (elements element member).2
          (eq_null_of_uninhabited few (elements element member).1)
      rw [empty] at is ⊢
      exact ⟨is, rfl, rfl⟩
  | map keyType valueType =>
      have is := typed.isContainer (by simp) nonnull
      obtain ⟨ownKey, own, chains, entries, rfl, _, known⟩ := is.map
      have empty : entries = [] := by
        apply List.eq_nil_iff_forall_not_mem.mpr
        intro entry member
        obtain ⟨⟨keyTyped, keyNonnull⟩, valueTyped, valueNonnull⟩ := known entry member
        rcases Bool.and_eq_false_iff.mp few with key | value
        · exact keyNonnull (eq_null_of_uninhabited key keyTyped)
        · exact valueNonnull (eq_null_of_uninhabited value valueTyped)
      rw [empty] at is ⊢
      exact ⟨is, rfl, rfl⟩
  | tuple types =>
      have is := typed.isContainer (by simp) nonnull
      obtain ⟨own, values, rfl, fields⟩ := is.tuple
      have empty : values = [] := by
        apply List.eq_nil_iff_forall_not_mem.mpr
        intro field member
        obtain ⟨type, at_, _⟩ := fields field member
        have none : types = [] := by simpa [CassType.isSeveral] using few
        simp [none] at at_
      rw [empty] at is ⊢
      exact ⟨is, rfl, rfl⟩
  | userType types =>
      have is := typed.isContainer (by simp) nonnull
      obtain ⟨own, values, rfl, fields⟩ := is.userType
      have empty : values = [] := by
        apply List.eq_nil_iff_forall_not_mem.mpr
        intro field member
        obtain ⟨type, inside, _⟩ := fields field member
        have none : types = [] := by simpa [CassType.isSeveral] using few
        simp [none] at inside
      rw [empty] at is ⊢
      exact ⟨is, rfl, rfl⟩

theorem contentCompare_of_empty {first second : PhpValue} (none : first.elements = []) :
    contentCompare first second = 0 := by
  cases first with
  | set _ _ values =>
      obtain rfl : values = [] := none
      cases second <;> simp [contentCompare, findValues, elements, compareValues]
  | map _ _ _ entries =>
      obtain rfl : entries = [] := List.map_eq_nil_iff.mp none
      cases second <;> simp [contentCompare, findEntries, elements, compareValues]
  | _ =>
      cases second <;> simp_all [contentCompare, compareValues]

theorem ownCompare_of_few {type : CassType} (few : type.isSeveral = false)
    {first second : PhpValue} (firstTyped : OfType type first) (firstNonnull : first ≠ .null)
    (secondTyped : OfType type second) (secondNonnull : second ≠ .null) :
    ownCompare first second = 0 := by
  obtain ⟨firstIs, firstEmpty, _⟩ := few_empty few firstTyped firstNonnull
  obtain ⟨secondIs, secondEmpty, _⟩ := few_empty few secondTyped secondNonnull
  rw [ownCompare_of_type firstIs secondIs, firstEmpty, secondEmpty,
    contentCompare_of_empty firstEmpty]
  rfl

theorem findKey_ne_none_iff {chains : Chains} {keys : List PhpValue} (table : chains.Holds keys)
    (searched : PhpValue) :
    findKey chains.log2NumBuckets searched keys chains.order ≠ none ↔
      ∃ key ∈ keys, Matches chains.log2NumBuckets key searched := by
  rw [ne_eq, findKey_eq_none_iff]
  push Not
  constructor
  · rintro ⟨position, _, key, at_, found⟩
    exact ⟨key, List.mem_of_getElem? at_, found⟩
  · rintro ⟨key, member, found⟩
    obtain ⟨position, at_⟩ := List.getElem?_of_mem member
    refine ⟨position, ?_, key, at_, found⟩
    rw [table.order.mem_iff, List.mem_range]
    exact (List.getElem?_eq_some_iff.mp at_).1

section

variable {keyType : CassType} (few : keyType.isSeveral = false)

include few

theorem matches_of_few {key searched : PhpValue} (keyTyped : OfType keyType key)
    (keyNonnull : key ≠ .null) (typed : OfType keyType searched) (nonnull : searched ≠ .null)
    (log2NumBuckets : Nat) : Matches log2NumBuckets key searched := by
  refine ⟨?_, ownCompare_of_few few keyTyped keyNonnull typed nonnull⟩
  rw [(few_empty few keyTyped keyNonnull).2.2, (few_empty few typed nonnull).2.2]

theorem keys_of_few {chains : Chains} {keys : List PhpValue} (table : chains.Holds keys)
    (typed : ∀ key ∈ keys, OfType keyType key ∧ key ≠ .null) :
    keys = [] ∨ ∃ key, keys = [key] := by
  match keys, table, typed with
  | [], _, _ => exact Or.inl rfl
  | [key], _, _ => exact Or.inr ⟨key, rfl⟩
  | first :: second :: rest, table, typed =>
      have firstTyped := typed first (by simp)
      have secondTyped := typed second (by simp)
      have apart := (List.pairwise_cons.mp table.distinct).1 second (by simp)
      exact absurd (matches_of_few few firstTyped.1 firstTyped.2 secondTyped.1 secondTyped.2 _)
        apart

end

theorem findKey_single {key searched : PhpValue} :
    findKey oneChain.log2NumBuckets searched [key] oneChain.order ≠ none ↔
      Matches oneChain.log2NumBuckets key searched := by
  rw [findKey_ne_none_iff (oneChain_holds key)]
  simp

theorem findValues_single_miss {key searched : PhpValue} (differ : ownCompare key searched ≠ 0) :
    findValues oneChain [searched] [key] = 1 := by
  have missing : findKey oneChain.log2NumBuckets searched [key] oneChain.order = none := by
    by_contra found
    exact differ (findKey_single.mp found).2
  rw [findValues, missing]

theorem findEntries_single_miss {key searched value other : PhpValue}
    (differ : ownCompare key searched ≠ 0) :
    findEntries oneChain [(searched, value)] [(key, other)] = 1 := by
  have missing : findKey oneChain.log2NumBuckets searched [key] oneChain.order = none := by
    by_contra found
    exact differ (findKey_single.mp found).2
  simp [findEntries, missing]

/-- A type whose containers are compared by their sizes and, place by place, by elements
of some kind, any of which makes a container by itself. -/
structure Positional (type : CassType) (holds : PhpValue → Prop) : Prop where
  container : ∀ scalar, type ≠ .scalar scalar
  elements : ∀ value, IsContainer type value → ∀ element ∈ value.elements, holds element
  single : ∀ element, holds element →
    ∃ value, IsContainer type value ∧ value.elements = [element]
  content : ∀ first second, IsContainer type first → IsContainer type second →
    first.elements.length = second.elements.length →
    contentCompare first second = compareValues first.elements second.elements

theorem list_positional (valueType : CassType) :
    Positional (.list valueType) (OfType valueType) where
  container := by simp
  elements := by
    intro value is
    obtain ⟨own, values, rfl, typed⟩ := is.list
    exact typed
  single := by
    intro element typed
    refine ⟨.collection valueType [element], ⟨?_, rfl⟩, rfl⟩
    exact ofType_collection_iff.mpr ⟨rfl, by simpa using typed⟩
  content := by
    intro first second firstIs secondIs lengths
    obtain ⟨own, values, rfl, _⟩ := firstIs.list
    rfl

def AnyOf (types : List CassType) (value : PhpValue) : Prop :=
  ∃ type ∈ types, OfType type value

theorem tuple_positional (types : List CassType) : Positional (.tuple types) (AnyOf types) where
  container := by simp
  elements := by
    intro value is element member
    obtain ⟨own, values, rfl, typed⟩ := is.tuple
    obtain ⟨field, known, rfl⟩ := List.mem_map.mp member
    obtain ⟨type, at_, fieldTyped⟩ := typed field known
    exact ⟨type, List.mem_of_getElem? at_, fieldTyped⟩
  single := by
    rintro element ⟨type, member, typed⟩
    obtain ⟨index, at_⟩ := List.getElem?_of_mem member
    refine ⟨.tuple types [(index, element)], ⟨?_, rfl⟩, rfl⟩
    exact ofType_tuple_iff.mpr ⟨rfl, by simp, by simpa using ⟨type, at_, typed⟩⟩
  content := by
    intro first second firstIs secondIs lengths
    obtain ⟨own, values, rfl, _⟩ := firstIs.tuple
    rfl

theorem userType_positional (types : List (List UInt8 × CassType)) :
    Positional (.userType types) (AnyOf (types.map Prod.snd)) where
  container := by simp
  elements := by
    intro value is element member
    obtain ⟨own, values, rfl, typed⟩ := is.userType
    obtain ⟨field, known, rfl⟩ := List.mem_map.mp member
    obtain ⟨type, inside, fieldTyped⟩ := typed field known
    exact ⟨type, List.mem_map.mpr ⟨_, inside, rfl⟩, fieldTyped⟩
  single := by
    rintro element ⟨type, member, typed⟩
    obtain ⟨⟨name, _⟩, inside, rfl⟩ := List.mem_map.mp member
    refine ⟨.userTypeValue types [(name, element)], ⟨?_, rfl⟩, rfl⟩
    exact ofType_userTypeValue_iff.mpr ⟨rfl, by simp, by simpa using ⟨_, inside, typed⟩⟩
  content := by
    intro first second firstIs secondIs lengths
    obtain ⟨own, values, rfl, _⟩ := firstIs.userType
    rfl

theorem set_positional {valueType : CassType} (few : valueType.isSeveral = false) :
    Positional (.set valueType) (fun value => OfType valueType value ∧ value ≠ .null) where
  container := by simp
  elements := by
    intro value is
    obtain ⟨own, chains, values, rfl, _, typed⟩ := is.set
    exact typed
  single := by
    rintro element ⟨typed, nonnull⟩
    exact ⟨.set valueType oneChain [element], ⟨ofType_singleton rfl typed nonnull, rfl⟩, rfl⟩
  content := by
    intro first second firstIs secondIs lengths
    obtain ⟨_, _, values, rfl, table, typed⟩ := firstIs.set
    obtain ⟨_, otherChains, others, rfl, otherTable, otherTyped⟩ := secondIs.set
    rcases keys_of_few few table typed with rfl | ⟨value, rfl⟩
    · rw [contentCompare_of_empty rfl]
      simp [PhpValue.elements, compareValues]
    · rcases keys_of_few few otherTable otherTyped with rfl | ⟨other, rfl⟩
      · cases lengths
      · have known := typed value (by simp)
        have otherKnown := otherTyped other (by simp)
        have found : findValues otherChains [value] [other] = 0 := by
          rw [findValues_eq_zero_iff]
          intro searched member
          obtain rfl := List.mem_singleton.mp member
          exact (findKey_ne_none_iff otherTable searched).mpr ⟨other, by simp,
            matches_of_few few otherKnown.1 otherKnown.2 known.1 known.2 _⟩
        rw [contentCompare, found]
        simp [PhpValue.elements, compareValues,
          ownCompare_of_few few known.1 known.2 otherKnown.1 otherKnown.2]

theorem map_positional {keyType valueType : CassType} (few : keyType.isSeveral = false)
    (inhabited : keyType.isInhabited) :
    Positional (.map keyType valueType) (fun value => OfType valueType value ∧ value ≠ .null) where
  container := by simp
  elements := by
    intro value is element member
    obtain ⟨_, _, _, entries, rfl, _, typed⟩ := is.map
    obtain ⟨entry, known, rfl⟩ := List.mem_map.mp member
    exact (typed entry known).2
  single := by
    rintro element ⟨typed, nonnull⟩
    exact ⟨.map keyType valueType oneChain [(sample keyType, element)],
      ⟨ofType_entry (sample_typed keyType) (sample_ne_null inhabited) typed nonnull, rfl⟩, rfl⟩
  content := by
    intro first second firstIs secondIs lengths
    obtain ⟨_, _, _, entries, rfl, table, typed⟩ := firstIs.map
    obtain ⟨_, _, otherChains, others, rfl, otherTable, otherTyped⟩ := secondIs.map
    have keys : ∀ key ∈ entries.map Prod.fst, OfType keyType key ∧ key ≠ .null := by
      intro key member
      obtain ⟨entry, known, rfl⟩ := List.mem_map.mp member
      exact (typed entry known).1
    have otherKeys : ∀ key ∈ others.map Prod.fst, OfType keyType key ∧ key ≠ .null := by
      intro key member
      obtain ⟨entry, known, rfl⟩ := List.mem_map.mp member
      exact (otherTyped entry known).1
    match entries, others, lengths with
    | [], [], _ => simp [contentCompare, findEntries, PhpValue.elements, compareValues]
    | [(key, value)], [(other, otherValue)], _ =>
        have known := keys key (by simp)
        have otherKnown := otherKeys other (by simp)
        have found := (findKey_ne_none_iff otherTable key).mpr ⟨other, by simp,
          matches_of_few few otherKnown.1 otherKnown.2 known.1 known.2 _⟩
        obtain ⟨position, foundAt⟩ := Option.ne_none_iff_exists'.mp found
        obtain ⟨_, at_, _⟩ := matches_of_findKey foundAt
        obtain rfl : position = 0 := by
          have inside := (List.getElem?_eq_some_iff.mp at_).1
          simpa using inside
        rw [contentCompare, findEntries_cons foundAt rfl]
        simp [findEntries, PhpValue.elements, compareValues]
    | _ :: _ :: _, _, _ =>
        rcases keys_of_few few table keys with none | ⟨key, single⟩
        · cases none
        · cases single

end PhpValue

namespace CassType

mutual

/-- No set and no map in the type can have several different keys, and the fields of every
tuple and every user type fit together. -/
def FewKeys (together : List CassType → Prop) : CassType → Prop
  | .scalar _ | .custom _ => True
  | .list valueType => FewKeys together valueType
  | .set valueType => valueType.isSeveral = false
  | .map keyType valueType =>
      keyType.isInhabited = false ∨ valueType.isInhabited = false ∨
        (keyType.isSeveral = false ∧ FewKeys together valueType)
  | .tuple types => EachFewKeys together types ∧ together types
  | .userType types => EachFieldFewKeys together types ∧ together (types.map Prod.snd)

def EachFewKeys (together : List CassType → Prop) : List CassType → Prop
  | [] => True
  | type :: types => FewKeys together type ∧ EachFewKeys together types

def EachFieldFewKeys (together : List CassType → Prop) : List (List UInt8 × CassType) → Prop
  | [] => True
  | (_, type) :: types => FewKeys together type ∧ EachFieldFewKeys together types

end

end CassType

/-- A property of the values of types that follows the types in this way. -/
structure Follows (good : CassType → Prop) (together : List CassType → Prop) : Prop where
  scalar : ∀ type, good (.scalar type)
  few : ∀ type, type.isSeveral = false → good type
  list : ∀ valueType, good (.list valueType) ↔ good valueType
  set : ∀ valueType, valueType.isSeveral → ¬ good (.set valueType)
  setOfFew : ∀ valueType, valueType.isSeveral = false → good (.set valueType)
  map : ∀ keyType valueType, keyType.isSeveral → valueType.isInhabited →
    ¬ good (.map keyType valueType)
  mapOfFew : ∀ keyType valueType, keyType.isSeveral = false → keyType.isInhabited →
    (good (.map keyType valueType) ↔ good valueType)
  tuple : ∀ types, good (.tuple types) ↔ (∀ type ∈ types, good type) ∧ together types
  userType : ∀ types, good (.userType types) ↔
    (∀ type ∈ types.map Prod.snd, good type) ∧ together (types.map Prod.snd)

namespace Follows

variable {good : CassType → Prop} {together : List CassType → Prop}

theorem set_iff (follows : Follows good together) (valueType : CassType) :
    good (.set valueType) ↔ valueType.isSeveral = false := by
  constructor
  · intro holds
    by_contra several
    exact follows.set valueType (by simpa using several) holds
  · exact follows.setOfFew valueType

theorem map_iff (follows : Follows good together) (keyType valueType : CassType) :
    good (.map keyType valueType) ↔
      keyType.isInhabited = false ∨ valueType.isInhabited = false ∨
        (keyType.isSeveral = false ∧ good valueType) := by
  cases keyInhabited : keyType.isInhabited with
  | false => simpa using follows.few _ (by simp [CassType.isSeveral, keyInhabited])
  | true =>
      cases valueInhabited : valueType.isInhabited with
      | false => simpa using follows.few _ (by simp [CassType.isSeveral, valueInhabited])
      | true =>
          cases several : keyType.isSeveral with
          | false => simpa using follows.mapOfFew keyType valueType several keyInhabited
          | true => simpa using follows.map keyType valueType several valueInhabited

mutual

theorem iff_fewKeys (follows : Follows good together) :
    ∀ type : CassType, good type ↔ type.FewKeys together
  | .scalar type => iff_of_true (follows.scalar type) trivial
  | .custom _ => iff_of_true (follows.few _ rfl) trivial
  | .list valueType => by
      rw [follows.list, iff_fewKeys follows valueType, CassType.FewKeys]
  | .set valueType => by rw [follows.set_iff, CassType.FewKeys]
  | .map keyType valueType => by
      rw [follows.map_iff, iff_fewKeys follows valueType, CassType.FewKeys]
  | .tuple types => by
      rw [follows.tuple, iff_eachFewKeys follows types, CassType.FewKeys]
  | .userType types => by
      rw [follows.userType, iff_eachFieldFewKeys follows types, CassType.FewKeys]

theorem iff_eachFewKeys (follows : Follows good together) : ∀ types : List CassType,
    (∀ type ∈ types, good type) ↔ CassType.EachFewKeys together types
  | [] => by simp [CassType.EachFewKeys]
  | type :: types => by
      rw [List.forall_mem_cons, iff_fewKeys follows type, iff_eachFewKeys follows types,
        CassType.EachFewKeys]

theorem iff_eachFieldFewKeys (follows : Follows good together) :
    ∀ types : List (List UInt8 × CassType),
      (∀ type ∈ types.map Prod.snd, good type) ↔ CassType.EachFieldFewKeys together types
  | [] => by simp [CassType.EachFieldFewKeys]
  | (_, type) :: types => by
      rw [List.map_cons, List.forall_mem_cons, iff_fewKeys follows type,
        iff_eachFieldFewKeys follows types, CassType.EachFieldFewKeys]

end

end Follows

end PhpDriver
