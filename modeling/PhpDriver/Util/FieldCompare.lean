import PhpDriver.Tuple.Object
import PhpDriver.Util.LooseEquality
import PhpDriver.UserTypeValue.Object

namespace PhpDriver

open Data

/-! The comparison of tuples and of user type values, which walks two hash tables in the order
in which their fields were set first, and what the values show of their fields. -/

variable {zendHash : List UInt8 → BitVec 32}

theorem zType_of_same {first second : Zval} (same : first.Same second) :
    first.zType = second.zType := by
  cases first with
  | scalar value =>
      rw [Zval.same_scalar_iff] at same
      exact zType_congr same
  | _ =>
      cases second <;> simp only [Zval.Same, Zval.meaning] at same <;>
        first
          | rfl
          | cases same

theorem dataCompare_apart {first second : Zval} (types : first.zType ≠ second.zType) :
    ∃ order, dataCompare zendHash first second = some order ∧ order ≠ 0 := by
  unfold dataCompare
  split
  · exact absurd rfl types
  · exact absurd rfl types
  · exact absurd rfl types
  · unfold valueCompare
    rw [if_pos types]
    refine ⟨_, rfl, ?_⟩
    split <;> decide

/-- The longer of the tables has a field that the other does not have. -/
theorem exists_more {Key : Type} {keys others : List Key} (nodup : others.Nodup)
    (lengths : keys.length < others.length) : ∃ key ∈ others, key ∉ keys := by
  by_contra none
  push Not at none
  have shorter := (List.subperm_of_subset nodup none).length_le
  exact absurd lengths (Nat.not_lt.mpr shorter)

/-- `values()` by the keys of the type, null where there is no value. -/
def fieldValue {Key : Type} [DecidableEq Key] (values : OrderedMap Key Zval) (key : Key) : Zval :=
  (values.get key).getD .null

section

variable {Key : Type} [DecidableEq Key] {first second : OrderedMap Key Zval}

/-- What makes the walk compare the fields with each other, and shows a field that only one
of the tables has. -/
structure FieldsAligned (first second : OrderedMap Key Zval) : Prop where
  firstNodup : first.keys.Nodup
  secondNodup : second.keys.Nodup
  order : first.length = second.length → first.keys = second.keys
  firstOnly : ∀ key, first.get key = some .null → key ∈ second.keys
  secondOnly : ∀ key, second.get key = some .null → key ∈ first.keys

/-- Aligned, and what `right` says of the values of every field that both have. -/
structure FieldsComparable (right : Zval → Zval → Prop)
    (first second : OrderedMap Key Zval) : Prop extends FieldsAligned first second where
  compared : ∀ key value other, first.get key = some value → second.get key = some other →
    right value other

/-- What may be set in the first table: a field that makes it as long as the second has the
place that it has there, and null is set only where the second has the field. -/
structure Settable (right : Zval → Zval → Prop) (first second : OrderedMap Key Zval)
    (key : Key) (value : Zval) : Prop where
  order : (first.set key value).length = second.length →
    (first.set key value).keys = second.keys
  notNull : value = .null → key ∈ second.keys
  compared : ∀ other, second.get key = some other → right value other

variable {right : Zval → Zval → Prop}

namespace FieldsComparable

theorem empty : FieldsComparable right ([] : OrderedMap Key Zval) [] where
  firstNodup := List.nodup_nil
  secondNodup := List.nodup_nil
  order := fun _ => rfl
  firstOnly := by simp [OrderedMap.get]
  secondOnly := by simp [OrderedMap.get]
  compared := by simp [OrderedMap.get]

theorem swap (comparable : FieldsComparable right first second) :
    FieldsComparable (fun value other => right other value) second first where
  firstNodup := comparable.secondNodup
  secondNodup := comparable.firstNodup
  order := fun lengths => (comparable.order lengths.symm).symm
  firstOnly := comparable.secondOnly
  secondOnly := comparable.firstOnly
  compared := fun key value other here there => comparable.compared key other value there here

theorem mono {related : Zval → Zval → Prop}
    (implies : ∀ value other, right value other → related value other)
    (comparable : FieldsComparable right first second) : FieldsComparable related first second where
  toFieldsAligned := comparable.toFieldsAligned
  compared := fun key value other here there =>
    implies value other (comparable.compared key value other here there)

theorem set (comparable : FieldsComparable right first second) {key : Key} {value : Zval}
    (settable : Settable right first second key value) :
    FieldsComparable right (first.set key value) second where
  firstNodup := first.nodup_set key value comparable.firstNodup
  secondNodup := comparable.secondNodup
  order := settable.order
  firstOnly := by
    intro other got
    rw [OrderedMap.get_set] at got
    split at got
    · rename_i same
      subst same
      exact settable.notNull (Option.some.inj got)
    · exact comparable.firstOnly other got
  secondOnly := by
    intro other got
    rw [OrderedMap.mem_keys_iff, OrderedMap.get_set]
    split
    · rfl
    · exact (OrderedMap.mem_keys_iff _ _).mp (comparable.secondOnly other got)
  compared := by
    intro other here there got found
    rw [OrderedMap.get_set] at got
    split at got
    · rename_i same
      subst same
      obtain rfl := Option.some.inj got
      exact settable.compared there found
    · exact comparable.compared other here there got found

end FieldsComparable

/-- Tables with the same keys in one order have their values at the same places. -/
theorem forall₂_values_iff (same : first.keys = second.keys) (nodup : first.keys.Nodup) :
    List.Forall₂ right first.values second.values ↔
      ∀ key value other, first.get key = some value → second.get key = some other →
        right value other := by
  have lengths : first.values.length = second.values.length := by
    have lengths := congrArg List.length same
    simpa [OrderedMap.keys, OrderedMap.values] using lengths
  rw [← OrderedMap.forall_getElem?_iff same nodup, List.forall₂_iff_get]
  constructor
  · rintro ⟨_, each⟩ index key value other firstAt secondAt
    obtain ⟨inFirst, here⟩ := List.getElem?_eq_some_iff.mp firstAt
    obtain ⟨inSecond, there⟩ := List.getElem?_eq_some_iff.mp secondAt
    have related := each index (by simpa [OrderedMap.values] using inFirst) inSecond
    rw [List.get_eq_getElem, List.get_eq_getElem] at related
    simpa [OrderedMap.values, here, ← there] using related
  · intro each
    refine ⟨lengths, fun index inFirst inSecond => ?_⟩
    have inside : index < first.length := by simpa [OrderedMap.values] using inFirst
    rw [List.get_eq_getElem, List.get_eq_getElem]
    apply each index first[index].1
    · rw [List.getElem?_eq_getElem inside]
      simp [OrderedMap.values]
    · exact List.getElem?_eq_getElem inSecond

theorem zType_eq_one_iff (value : Zval) : value.zType = 1 ↔ value = .null := by
  cases value with
  | null => simp [Zval.zType]
  | scalar value =>
      cases value with
      | bool value => cases value <;> simp [Zval.zType]
      | _ => simp [Zval.zType]
  | _ => simp [Zval.zType]

theorem fieldValue_of_get {key : Key} {value : Zval} (got : first.get key = some value) :
    fieldValue first key = value := by
  rw [fieldValue, got, Option.getD_some]

theorem fieldValue_of_missing {key : Key} (missing : key ∉ first.keys) :
    fieldValue first key = .null := by
  rw [fieldValue, (OrderedMap.get_eq_none_iff _ _).mpr missing, Option.getD_none]

theorem get_fieldValue {key : Key} (present : key ∈ first.keys) :
    first.get key = some (fieldValue first key) := by
  obtain ⟨value, got⟩ := Option.isSome_iff_exists.mp ((OrderedMap.mem_keys_iff _ _).mp present)
  rw [fieldValue_of_get got, got]

theorem FieldsAligned.swap (aligned : FieldsAligned first second) : FieldsAligned second first where
  firstNodup := aligned.secondNodup
  secondNodup := aligned.firstNodup
  order := fun lengths => (aligned.order lengths.symm).symm
  firstOnly := aligned.secondOnly
  secondOnly := aligned.firstOnly

theorem FieldsAligned.differ (aligned : FieldsAligned first second) {key : Key}
    (present : key ∈ second.keys) (missing : key ∉ first.keys) :
    (fieldValue second key).zType ≠ (fieldValue first key).zType := by
  intro same
  rw [fieldValue_of_missing missing] at same
  have isNull := (zType_eq_one_iff _).mp same
  exact missing (aligned.secondOnly key (isNull ▸ get_fieldValue present))

theorem FieldsAligned.exists_differ (aligned : FieldsAligned first second)
    (lengths : first.length ≠ second.length) :
    ∃ key, (key ∈ first.keys ∨ key ∈ second.keys) ∧
      (fieldValue first key).zType ≠ (fieldValue second key).zType := by
  have keysLengths : first.keys.length ≠ second.keys.length := by
    simpa [OrderedMap.keys] using lengths
  rcases Nat.lt_or_gt_of_ne keysLengths with shorter | longer
  · obtain ⟨key, present, missing⟩ := exists_more aligned.secondNodup shorter
    exact ⟨key, .inr present, (aligned.differ present missing).symm⟩
  · obtain ⟨key, present, missing⟩ := exists_more aligned.firstNodup longer
    exact ⟨key, .inl present, aligned.swap.differ present missing⟩

/-- Of tables with the same keys the fields are the same when the values are. -/
theorem FieldsAligned.same_iff (aligned : FieldsAligned first second)
    (same : first.keys = second.keys) {keys : List Key} (known : first.keys ⊆ keys) :
    (∀ key ∈ keys, (fieldValue first key).Same (fieldValue second key)) ↔
      List.Forall₂ Zval.Same first.values second.values := by
  rw [forall₂_values_iff same aligned.firstNodup]
  constructor
  · intro fields key value other here there
    have present := Option.isSome_iff_exists.mpr ⟨value, here⟩
    have member := known ((OrderedMap.mem_keys_iff _ _).mpr present)
    have alike := fields key member
    rwa [fieldValue_of_get here, fieldValue_of_get there] at alike
  · intro each key _
    by_cases present : key ∈ first.keys
    · exact each key _ _ (get_fieldValue present) (get_fieldValue (same ▸ present))
    · rw [fieldValue_of_missing present, fieldValue_of_missing (same ▸ present)]
      exact .refl .null

end

variable (zendHash) in
def compareValues : List Zval → List Zval → Option Int
  | value :: values, other :: others =>
      (dataCompare zendHash value other).bind fun result =>
        if result ≠ 0 then some result else compareValues values others
  | _, _ => some 0

theorem compareIndexed_eq : ∀ values others : List (Nat × Zval),
    compareIndexed zendHash values others =
      compareValues zendHash (values.map Prod.snd) (others.map Prod.snd)
  | [], _ => by simp [compareIndexed, compareValues]
  | _ :: _, [] => by simp [compareIndexed, compareValues]
  | (_, value) :: values, (_, other) :: others => by
      rw [compareIndexed, List.map_cons, List.map_cons, compareValues,
        compareIndexed_eq values others]

theorem compareNamed_eq : ∀ values others : List (List UInt8 × Zval),
    compareNamed zendHash values others =
      compareValues zendHash (values.map Prod.snd) (others.map Prod.snd)
  | [], _ => by simp [compareNamed, compareValues]
  | _ :: _, [] => by simp [compareNamed, compareValues]
  | (_, value) :: values, (_, other) :: others => by
      rw [compareNamed, List.map_cons, List.map_cons, compareValues,
        compareNamed_eq values others]

variable (zendHash) in
def Decided (first second : Zval) : Prop :=
  ∃ order, dataCompare zendHash first second = some order ∧ (order = 0 ↔ first.Same second)

theorem compareValues_tells {values others : List Zval}
    (decided : List.Forall₂ (Decided zendHash) values others) :
    ∃ order, compareValues zendHash values others = some order ∧
      (order = 0 ↔ List.Forall₂ Zval.Same values others) := by
  induction decided with
  | nil => exact ⟨0, rfl, iff_of_true rfl .nil⟩
  | @cons value other values others head _ ih =>
      obtain ⟨first, compared, tells⟩ := head
      obtain ⟨rest, walked, restTells⟩ := ih
      rw [compareValues, compared, Option.bind_some, List.forall₂_cons]
      by_cases zero : first = 0
      · rw [if_neg (not_not.mpr zero)]
        exact ⟨rest, walked, by rw [restTells, iff_true_intro (tells.mp zero), true_and]⟩
      · rw [if_pos zero]
        exact ⟨first, rfl, iff_of_false zero fun same => zero (tells.mpr same.1)⟩

section

variable {Key : Type} [DecidableEq Key] {first second : OrderedMap Key Zval}

variable (zendHash) in
def compareTables (first second : OrderedMap Key Zval) : Option Int :=
  let result := compareNat first.length second.length
  if result ≠ 0 then some result else compareValues zendHash first.values second.values

/-- On tables that can be compared, the walk tells whether all fields are the same. -/
theorem FieldsComparable.compareTables_tells
    (comparable : FieldsComparable (Decided zendHash) first second)
    {keys : List Key} (firstKnown : first.keys ⊆ keys) (secondKnown : second.keys ⊆ keys) :
    ∃ order, compareTables zendHash first second = some order ∧
      (order = 0 ↔ List.Forall₂ Zval.Same (keys.map (fieldValue first))
        (keys.map (fieldValue second))) := by
  rw [List.forall₂_map_left_iff, List.forall₂_map_right_iff, List.forall₂_same, compareTables]
  by_cases lengths : first.length = second.length
  · have same := comparable.order lengths
    have decided := (forall₂_values_iff same comparable.firstNodup).mpr comparable.compared
    rw [lengths, compareNat_self, if_neg (by decide), comparable.same_iff same firstKnown]
    exact compareValues_tells decided
  · have differ : compareNat first.length second.length ≠ 0 :=
      mt compareNat_eq_zero_iff.mp lengths
    obtain ⟨key, present, types⟩ := comparable.exists_differ lengths
    have known : key ∈ keys := present.elim (firstKnown ·) (secondKnown ·)
    rw [if_pos differ]
    exact ⟨_, rfl, iff_of_false differ fun same => types (zType_of_same (same key known))⟩

end

theorem dataCompare_tuples {types otherTypes : List CassType} {values others : List (Nat × Zval)}
    (same : (CassType.tuple types).canonical = (CassType.tuple otherTypes).canonical) :
    dataCompare zendHash (.tuple types values) (.tuple otherTypes others) =
      compareTables zendHash values others := by
  rw [dataCompare, (typeCompare_eq_zero_iff _ _).mpr same, thenCompare_zero_left,
    compareIndexed_eq]
  rfl

theorem dataCompare_userTypeValues {types otherTypes : List (List UInt8 × CassType)}
    {values others : List (List UInt8 × Zval)}
    (same : (CassType.userType types).canonical = (CassType.userType otherTypes).canonical) :
    dataCompare zendHash (.userTypeValue types values) (.userTypeValue otherTypes others) =
      compareTables zendHash values others := by
  rw [dataCompare, (typeCompare_eq_zero_iff _ _).mpr same, thenCompare_zero_left,
    compareNamed_eq]
  rfl

/-! Tuples and user type values are the same when their fields are. -/

theorem field_meanings {Key : Type} [DecidableEq Key] (values : OrderedMap Key Zval) :
    CassValue.field (values.map fun field => (field.1, field.2.meaning)) =
      fun key => (fieldValue values key).meaning := by
  funext key
  rw [CassValue.field, OrderedMap.get_map, fieldValue]
  exact Option.getD_map Zval.meaning .null _

theorem forall₂_meanings_iff {Key : Type} {values others : Key → Zval}
    {keys otherKeys : List Key} :
    List.Forall₂ CassValue.Same (keys.map fun key => (values key).meaning)
        (otherKeys.map fun key => (others key).meaning) ↔
      List.Forall₂ Zval.Same (keys.map values) (otherKeys.map others) := by
  rw [List.forall₂_map_left_iff, List.forall₂_map_right_iff, List.forall₂_map_left_iff,
    List.forall₂_map_right_iff]
  rfl

theorem same_tuples_iff {types otherTypes : List CassType} {values others : List (Nat × Zval)} :
    (Zval.tuple types values).Same (.tuple otherTypes others) ↔
      List.Forall₂ Zval.Same ((List.range types.length).map (fieldValue values))
        ((List.range otherTypes.length).map (fieldValue others)) := by
  rw [Zval.Same, Zval.meaning, Zval.meaning, Zval.indexedMeanings_eq_map,
    Zval.indexedMeanings_eq_map, field_meanings, field_meanings, ← forall₂_meanings_iff]
  constructor
  · rintro (_ | _ | _ | _ | _ | _ | each)
    exact each
  · exact .tuple

theorem same_userTypeValues_iff {types otherTypes : OrderedMap (List UInt8) CassType}
    {values others : List (List UInt8 × Zval)} (names : types.keys = otherTypes.keys) :
    (Zval.userTypeValue types values).Same (.userTypeValue otherTypes others) ↔
      List.Forall₂ Zval.Same (types.keys.map (fieldValue values))
        (otherTypes.keys.map (fieldValue others)) := by
  rw [Zval.Same, Zval.meaning, Zval.meaning, Zval.namedMeanings_eq_map,
    Zval.namedMeanings_eq_map, field_meanings, field_meanings, ← forall₂_meanings_iff,
    OrderedMap.keys, OrderedMap.keys, List.map_map, List.map_map]
  constructor
  · rintro (_ | _ | _ | _ | _ | _ | _ | ⟨_, each⟩)
    rwa [List.map_map, List.map_map] at each
  · intro each
    refine .userType ?_ ?_
    · rw [List.map_map, List.map_map]
      exact names
    · rwa [List.map_map, List.map_map]

/-! When the comparison decides, by what the values are. -/

theorem userType_keys_eq {types otherTypes : OrderedMap (List UInt8) CassType}
    (same : (CassType.userType types).canonical = (CassType.userType otherTypes).canonical) :
    types.keys = otherTypes.keys := by
  rw [CassType.canonical, CassType.canonical, CassType.userType.injEq,
    CassType.canonicalFields_eq_map, CassType.canonicalFields_eq_map] at same
  have names := congrArg (List.map Prod.fst) same
  rwa [List.map_map, List.map_map] at names

theorem tuple_length_eq {types otherTypes : List CassType}
    (same : (CassType.tuple types).canonical = (CassType.tuple otherTypes).canonical) :
    types.length = otherTypes.length := by
  rw [CassType.canonical, CassType.canonical, CassType.tuple.injEq,
    CassType.canonicals_eq_map, CassType.canonicals_eq_map] at same
  simpa using congrArg List.length same

variable (zendHash) in
/-- When `php_driver_value_compare` finds two values equal exactly when they are the same. -/
inductive ComparedRight : Zval → Zval → Prop
  | null : ComparedRight .null .null
  | apart {first second : Zval} (types : first.zType ≠ second.zType) : ComparedRight first second
  /-- Of one type that is no object, or of one class that installs its comparison. -/
  | alike {first second : Scalar} (alike : first.Alike second) (ordered : second.Ordered) :
      ComparedRight (.scalar first) (.scalar second)
  | inherited {first second : Zval} {valueClass : ValueClass}
      (firstClass : first.valueClass = some valueClass)
      (secondClass : second.valueClass = some valueClass)
      (inherits : first.inheritsCompare) (same : first.Same second) : ComparedRight first second
  | set {valueType otherType : CassType} {values others : List Zval}
      (tells : setCompare zendHash valueType otherType values others = 0 ↔
        (Zval.set valueType values).Same (.set otherType others)) :
      ComparedRight (.set valueType values) (.set otherType others)
  | tuple {types otherTypes : List CassType} {values others : OrderedMap Nat Zval}
      (types_eq : (CassType.tuple types).canonical = (CassType.tuple otherTypes).canonical)
      (known : values.keys ⊆ List.range types.length)
      (otherKnown : others.keys ⊆ List.range types.length) (aligned : FieldsAligned values others)
      (compared : ∀ index value other, values.get index = some value →
        others.get index = some other → ComparedRight value other) :
      ComparedRight (.tuple types values) (.tuple otherTypes others)
  | userTypeValue {types otherTypes : OrderedMap (List UInt8) CassType}
      {values others : OrderedMap (List UInt8) Zval}
      (types_eq : (CassType.userType types).canonical = (CassType.userType otherTypes).canonical)
      (known : values.keys ⊆ types.keys) (otherKnown : others.keys ⊆ types.keys)
      (aligned : FieldsAligned values others)
      (compared : ∀ name value other, values.get name = some value →
        others.get name = some other → ComparedRight value other) :
      ComparedRight (.userTypeValue types values) (.userTypeValue otherTypes others)

theorem ComparedRight.decided {first second : Zval}
    (right : ComparedRight zendHash first second) : Decided zendHash first second := by
  induction right with
  | null => exact ⟨0, by simp [dataCompare, valueCompare], iff_of_true rfl (.refl .null)⟩
  | apart types =>
      obtain ⟨order, compared, differ⟩ := @dataCompare_apart zendHash _ _ types
      exact ⟨order, compared, iff_of_false differ (mt zType_of_same types)⟩
  | alike alike ordered => exact compare_alike alike ordered
  | inherited firstClass secondClass inherits same =>
      exact ⟨0, dataCompare_of_inherits firstClass secondClass inherits, iff_of_true rfl same⟩
  | set tells => exact ⟨_, by rw [dataCompare], tells⟩
  | tuple types_eq known otherKnown aligned _ ih =>
      rw [Decided, dataCompare_tuples types_eq, same_tuples_iff, ← tuple_length_eq types_eq]
      exact FieldsComparable.compareTables_tells ⟨aligned, ih⟩ known otherKnown
  | userTypeValue types_eq known otherKnown aligned _ ih =>
      have names := userType_keys_eq types_eq
      rw [Decided, dataCompare_userTypeValues types_eq, same_userTypeValues_iff names, ← names]
      exact FieldsComparable.compareTables_tells ⟨aligned, ih⟩ known otherKnown

theorem ComparedRight.tells {zend : Zend} {first second : Zval} {valueClass : ValueClass}
    (right : ComparedRight zendHash first second) (firstClass : first.valueClass = some valueClass)
    (secondClass : second.valueClass = some valueClass) : Tells zendHash zend first second := by
  obtain ⟨order, compared, tells⟩ := right.decided
  refine @tells_of_objects _ _ _ _ _ firstClass secondClass (order == 0) ?_ (by rwa [beq_iff_eq])
  rw [isEqual_objects firstClass (zType_of_valueClass secondClass), compared, Option.map_some]

end PhpDriver
