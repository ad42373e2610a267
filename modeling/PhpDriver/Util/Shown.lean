import PhpDriver.Data.Sorting
import PhpDriver.Util.Built
import PhpDriver.Util.DataCompare
import PhpDriver.Util.Told

namespace PhpDriver

open Data

/-! The arrays that show the content of a set or a map on PHP 8. `zend_hash_sort` is any sort
by comparisons. -/

variable (zendHash : List UInt8 → BitVec 32) (sorting : ComparisonSort)

def shownCompare (first second : Zval) : Int :=
  (dataCompare zendHash first second).getD 0

def shown (values : List Zval) : List Zval :=
  sorting.sort (shownCompare zendHash) values

def SameValues (first second : List Zval) : Prop :=
  ∃ arranged, (first.map Zval.meaning).Perm arranged ∧
    List.Forall₂ CassValue.Same arranged (second.map Zval.meaning)

/-- The lists have the same values and, where their class inherits its comparison, in one
order. -/
structure ShownAlike (first second : List Zval) : Prop where
  same : SameValues first second
  order : (∃ value ∈ first, value.inheritsCompare) → List.Forall₂ Zval.Same first second

variable {zendHash sorting}

def AllInstances (type : ScalarType) (values : List Zval) : Prop :=
  ∀ value ∈ values, ∃ scalar, value = .scalar scalar ∧ type.isInstance scalar

theorem sameValues_iff_perm {type : ScalarType} {first second : List Zval}
    (instances : AllInstances type second) :
    SameValues first second ↔ (first.map Zval.meaning).Perm (second.map Zval.meaning) := by
  have equal (arranged : List CassValue) :
      List.Forall₂ CassValue.Same arranged (second.map Zval.meaning) →
        arranged = second.map Zval.meaning := by
    intro each
    induction second generalizing arranged with
    | nil => cases each; rfl
    | cons value values ih =>
        rw [AllInstances, List.forall_mem_cons] at instances
        obtain ⟨scalar, rfl, _⟩ := instances.1
        cases each with
        | cons same rest =>
            rw [List.map_cons, ih instances.2 _ rest]
            cases same
            rfl
  constructor
  · rintro ⟨arranged, order, each⟩
    rwa [equal arranged each] at order
  · intro perm
    exact ⟨_, perm, CassValue.each_refl _⟩

theorem forall₂_same_iff_of_instances {type : ScalarType} {first second : List Zval}
    (instances : AllInstances type first) :
    List.Forall₂ Zval.Same first second ↔
      first.map Zval.meaning = second.map Zval.meaning := by
  apply Zval.forall₂_same_iff
  intro value member
  obtain ⟨scalar, rfl, _⟩ := instances value member
  exact ⟨scalar, rfl⟩

theorem shownCompare_of_ordered {type : ScalarType} {first second : Scalar}
    (firstHolds : type.isInstance first) (secondHolds : type.isInstance second)
    (ordered : second.Ordered) :
    shownCompare zendHash (.scalar first) (.scalar second) = first.orderCompare second := by
  rw [shownCompare, dataCompare_scalar,
    ScalarType.valueCompare_of_ordered firstHolds secondHolds ordered, Option.getD_some]

theorem shownCompare_lawful {type : ScalarType}
    (ordered : ∀ scalar, type.isInstance scalar → scalar.Ordered) :
    LawfulOn (fun value => ∃ scalar, value = .scalar scalar ∧ type.isInstance scalar)
      (shownCompare zendHash) := by
  apply ((ScalarType.orderCompare_lawful type).of_related
    fun value scalar => value = .scalar scalar ∧ type.isInstance scalar)
  · rintro value ⟨scalar, rfl, holds⟩
    exact ⟨scalar, holds, rfl, holds⟩
  · rintro _ _ first second ⟨rfl, firstHolds⟩ ⟨rfl, secondHolds⟩
    exact shownCompare_of_ordered firstHolds secondHolds (ordered second secondHolds)

theorem shownCompare_eq_zero_iff {type : ScalarType}
    (ordered : ∀ scalar, type.isInstance scalar → scalar.Ordered) {first second : Zval}
    (firstHolds : ∃ scalar, first = .scalar scalar ∧ type.isInstance scalar)
    (secondHolds : ∃ scalar, second = .scalar scalar ∧ type.isInstance scalar) :
    shownCompare zendHash first second = 0 ↔ first.meaning = second.meaning := by
  obtain ⟨first, rfl, firstHolds⟩ := firstHolds
  obtain ⟨second, rfl, secondHolds⟩ := secondHolds
  rw [shownCompare_of_ordered firstHolds secondHolds (ordered second secondHolds),
    ScalarType.orderCompare_eq_zero_iff firstHolds secondHolds]

theorem shown_blind_iff {first second : List Zval}
    (firstBlind : ∀ value ∈ first, ∀ other ∈ first,
      dataCompare zendHash value other = some 0)
    (secondBlind : ∀ value ∈ second, ∀ other ∈ second,
      dataCompare zendHash value other = some 0) :
    List.Forall₂ Zval.Same (shown zendHash sorting first) (shown zendHash sorting second) ↔
      List.Forall₂ Zval.Same first second := by
  apply sorting.forall₂_sort_iff
  · intro value member other otherMember
    rw [shownCompare, firstBlind value member other otherMember, Option.getD_some]
  · intro value member other otherMember
    rw [shownCompare, secondBlind value member other otherMember, Option.getD_some]

theorem sameValues_of_forall₂ {first second : List Zval}
    (each : List.Forall₂ Zval.Same first second) : SameValues first second := by
  refine ⟨_, List.Perm.refl _, ?_⟩
  rw [List.forall₂_map_left_iff, List.forall₂_map_right_iff]
  exact each

theorem shownAlike_iff_forall₂ {first second : List Zval}
    (inherits : ∀ value ∈ first, value.inheritsCompare) :
    ShownAlike first second ↔ List.Forall₂ Zval.Same first second := by
  constructor
  · intro alike
    cases first with
    | nil =>
        obtain ⟨arranged, order, each⟩ := alike.same
        obtain rfl := List.nil_perm.mp order
        rw [List.forall₂_nil_left_iff, List.map_eq_nil_iff] at each
        rw [each]
        exact .nil
    | cons value values =>
        exact alike.order ⟨value, List.mem_cons_self, inherits value List.mem_cons_self⟩
  · intro each
    exact ⟨sameValues_of_forall₂ each, fun _ => each⟩

theorem shown_instances_iff {type : ScalarType} {first second : List Zval}
    (firstInstances : AllInstances type first) (secondInstances : AllInstances type second) :
    List.Forall₂ Zval.Same (shown zendHash sorting first) (shown zendHash sorting second) ↔
      ShownAlike first second := by
  by_cases unordered : ∃ scalar, type.isInstance scalar = true ∧ ¬ scalar.Ordered
  · obtain ⟨scalar, holds, unordered⟩ := unordered
    have blind (values : List Zval) (instances : AllInstances type values) :
        ∀ value ∈ values, ∀ other ∈ values, dataCompare zendHash value other = some 0 := by
      intro value member other otherMember
      obtain ⟨first, rfl, firstHolds⟩ := instances value member
      obtain ⟨second, rfl, secondHolds⟩ := instances other otherMember
      rw [dataCompare_scalar]
      exact ScalarType.valueCompare_of_unordered firstHolds secondHolds
        (mt (ScalarType.ordered_congr secondHolds holds).mp unordered)
    rw [shown_blind_iff (blind first firstInstances) (blind second secondInstances),
      shownAlike_iff_forall₂]
    intro value member
    obtain ⟨first, rfl, firstHolds⟩ := firstInstances value member
    have apart := mt (ScalarType.ordered_congr firstHolds holds).mp unordered
    rwa [Scalar.Ordered, Bool.not_eq_false] at apart
  · have ordered (scalar : Scalar) (holds : type.isInstance scalar) : scalar.Ordered :=
      not_not.mp fun apart => unordered ⟨scalar, holds, apart⟩
    have shownInstances : AllInstances type (shown zendHash sorting first) := by
      intro value member
      exact firstInstances value ((sorting.sort_perm _ first).mem_iff.mp member)
    have seen := sorting.map_sort_eq_iff (@shownCompare_lawful zendHash type ordered)
      (fun first second firstHolds secondHolds =>
        (shownCompare_eq_zero_iff ordered firstHolds secondHolds).mp)
      (fun first second firstHolds secondHolds =>
        (shownCompare_eq_zero_iff ordered firstHolds secondHolds).mpr)
      firstInstances secondInstances
    rw [forall₂_same_iff_of_instances shownInstances, shown, shown, seen]
    constructor
    · intro perm
      refine ⟨(sameValues_iff_perm secondInstances).mpr perm, ?_⟩
      rintro ⟨value, member, inherits⟩
      obtain ⟨scalar, rfl, holds⟩ := firstInstances value member
      have own := ordered scalar holds
      rw [Scalar.Ordered, inherits] at own
      cases own
    · intro alike
      exact (sameValues_iff_perm secondInstances).mp alike.same

/-! The values of a type, as far as they can be built. -/

variable (zendHash) in
def HoldsAny (type : CassType) : Prop :=
  ∃ value, Built zendHash value ∧ Fits type value

variable (zendHash) in
def HoldsSeveral (type : CassType) : Prop :=
  ∃ value other, Built zendHash value ∧ Fits type value ∧ Built zendHash other ∧
    Fits type other ∧ ¬ value.Same other

theorem SameValues.length_eq {first second : List Zval} (same : SameValues first second) :
    first.length = second.length := by
  obtain ⟨arranged, order, each⟩ := same
  have lengths := order.length_eq.trans each.length_eq
  rwa [List.length_map, List.length_map] at lengths

theorem shown_single_iff {first second : List Zval}
    (same : ∀ value ∈ first, ∀ other ∈ second, value.Same other) :
    List.Forall₂ Zval.Same (shown zendHash sorting first) (shown zendHash sorting second) ↔
      ShownAlike first second := by
  have shownSame : ∀ value ∈ shown zendHash sorting first,
      ∀ other ∈ shown zendHash sorting second, value.Same other := by
    intro value member other otherMember
    exact same value ((sorting.sort_perm _ first).mem_iff.mp member) other
      ((sorting.sort_perm _ second).mem_iff.mp otherMember)
  rw [forall₂_iff_length shownSame, shown, shown, sorting.length_sort,
    sorting.length_sort]
  constructor
  · intro lengths
    have each := (forall₂_iff_length same).mpr lengths
    exact ⟨sameValues_of_forall₂ each, fun _ => each⟩
  · intro alike
    exact alike.same.length_eq

/-- The types whose values are all told apart, or none of them, or of which there is one. -/
def Settled (zendHash : List UInt8 → BitVec 32) (type : CassType) : Prop :=
  (∃ scalarType, type = .scalar scalarType) ∨ (∃ valueType, type = .list valueType) ∨
    (∃ keyType valueType, type = .map keyType valueType) ∨ ¬ HoldsSeveral zendHash type

theorem Fits.scalar_of_type {type : ScalarType} {value : Zval} (fits : Fits (.scalar type) value) :
    ∃ scalar, value = .scalar scalar ∧ type.isInstance scalar := by
  have accepted := fits.accepted
  cases value with
  | null => cases fits.nonnull
  | scalar scalar =>
      obtain ⟨_, same, holds⟩ := (validateObject_scalar_iff scalar _).mp accepted
      obtain rfl := CassType.scalar.inj same
      exact ⟨scalar, rfl, holds⟩
  | _ => simp [validateObject] at accepted

theorem Fits.collection_of_type {type : CassType} {value : Zval} (fits : Fits (.list type) value) :
    ∃ valueType values, value = .collection valueType values := by
  have accepted := fits.accepted
  cases value with
  | null => cases fits.nonnull
  | collection valueType values => exact ⟨valueType, values, rfl⟩
  | _ => simp [validateObject] at accepted

theorem Fits.map_of_type {keyType type : CassType} {value : Zval}
    (fits : Fits (.map keyType type) value) :
    ∃ keyType valueType entries, value = .map keyType valueType entries := by
  have accepted := fits.accepted
  cases value with
  | null => cases fits.nonnull
  | map keyType valueType entries => exact ⟨keyType, valueType, entries, rfl⟩
  | _ => simp [validateObject] at accepted

theorem shown_iff {type : CassType} (settled : Settled zendHash type) {first second : List Zval}
    (firstFits : ∀ value ∈ first, Fits type value ∧ Built zendHash value)
    (secondFits : ∀ value ∈ second, Fits type value ∧ Built zendHash value) :
    List.Forall₂ Zval.Same (shown zendHash sorting first) (shown zendHash sorting second) ↔
      ShownAlike first second := by
  rcases settled with
    ⟨scalarType, rfl⟩ | ⟨valueType, rfl⟩ | ⟨keyType, valueType, rfl⟩ | single
  · apply @shown_instances_iff _ _ scalarType
    · exact fun value member => (firstFits value member).1.scalar_of_type
    · exact fun value member => (secondFits value member).1.scalar_of_type
  · have blind (values : List Zval) (fits : ∀ value ∈ values, Fits (.list valueType) value) :
        ∀ value ∈ values, ∀ other ∈ values, dataCompare zendHash value other = some 0 := by
      intro value member other otherMember
      obtain ⟨_, _, rfl⟩ := (fits value member).collection_of_type
      obtain ⟨_, _, rfl⟩ := (fits other otherMember).collection_of_type
      rw [dataCompare_collections]
    rw [shown_blind_iff (blind first fun value member => (firstFits value member).1)
      (blind second fun value member => (secondFits value member).1), shownAlike_iff_forall₂]
    intro value member
    obtain ⟨_, _, rfl⟩ := (firstFits value member).1.collection_of_type
    rfl
  · have blind (values : List Zval)
        (fits : ∀ value ∈ values, Fits (.map keyType valueType) value) :
        ∀ value ∈ values, ∀ other ∈ values, dataCompare zendHash value other = some 0 := by
      intro value member other otherMember
      obtain ⟨_, _, _, rfl⟩ := (fits value member).map_of_type
      obtain ⟨_, _, _, rfl⟩ := (fits other otherMember).map_of_type
      rw [dataCompare_maps]
    rw [shown_blind_iff (blind first fun value member => (firstFits value member).1)
      (blind second fun value member => (secondFits value member).1), shownAlike_iff_forall₂]
    intro value member
    obtain ⟨_, _, _, rfl⟩ := (firstFits value member).1.map_of_type
    rfl
  · apply shown_single_iff
    intro value member other otherMember
    by_contra differ
    exact single ⟨value, other, (firstFits value member).2, (firstFits value member).1,
      (secondFits other otherMember).2, (secondFits other otherMember).1, differ⟩

theorem DistinctKeys.scalarType {type : CassType} {keys : List Zval}
    (distinct : DistinctKeys zendHash type keys) {key : Zval} (member : key ∈ keys) :
    ∃ scalarType, type = .scalar scalarType := by
  obtain ⟨scalarType, _, same, _⟩ :=
    (distinct.fits key member).scalar (distinct.hashed key member)
  exact ⟨scalarType, same⟩

theorem DistinctKeys.instances {scalarType : ScalarType} {keys : List Zval}
    (distinct : DistinctKeys zendHash (.scalar scalarType) keys) :
    AllInstances scalarType keys :=
  fun key member => (distinct.fits key member).scalar_of_type

theorem shown_keys_iff {type : CassType} {first second : List Zval}
    (firstKeys : DistinctKeys zendHash type first)
    (secondKeys : DistinctKeys zendHash type second) :
    List.Forall₂ Zval.Same (shown zendHash sorting first) (shown zendHash sorting second) ↔
      ShownAlike first second := by
  by_cases scalar : ∃ scalarType, type = .scalar scalarType
  · obtain ⟨scalarType, rfl⟩ := scalar
    exact shown_instances_iff firstKeys.instances secondKeys.instances
  · -- there are none
    apply shown_single_iff
    intro key member
    exact absurd (firstKeys.scalarType member) scalar

def CassType.isHashed : CassType → Bool
  | .scalar .varint | .scalar .float | .scalar .decimal | .scalar .duration => true
  | type => type.isPlain

theorem Fits.isHashed {type : CassType} {key : Zval} (fits : Fits type key)
    (hashed : (valueHash zendHash key).isSome) : type.isHashed := by
  obtain ⟨scalarType, scalar, rfl, rfl, holds⟩ := fits.scalar hashed
  cases scalarType.instance_of holds <;> first | rfl | cases hashed

theorem Fits.inherits_of_isPlain {type : CassType} {key : Zval} (fits : Fits type key)
    (plain : type.isPlain) : key.inheritsCompare = false := by
  have object := zType_of_isPlain plain fits.accepted
  exact Bool.eq_false_iff.mpr fun inherits => object (zType_of_inherits inherits)

theorem Apart.symm {first second : Zval} (apart : Apart zendHash first second)
    (kind : first.inheritsCompare = second.inheritsCompare) : Apart zendHash second first where
  differ := apart.differ.symm
  buckets := by
    intro inherits secondHash firstHash secondKnown firstKnown
    rw [kind] at inherits
    exact (apart.buckets inherits firstHash secondHash firstKnown secondKnown).symm

theorem distinctKeys_pair {type : CassType} {first second : Zval} (firstFits : Fits type first)
    (secondFits : Fits type second) (firstHashed : (valueHash zendHash first).isSome)
    (secondHashed : (valueHash zendHash second).isSome) (apart : Apart zendHash first second) :
    DistinctKeys zendHash type [first, second] ∧ DistinctKeys zendHash type [second, first] := by
  have kind := firstFits.sameKind secondFits firstHashed secondHashed
  have swapped := apart.symm kind.1
  constructor
  · exact ⟨by simp [firstFits, secondFits], by simp [firstHashed, secondHashed],
      List.pairwise_pair.mpr apart⟩
  · exact ⟨by simp [firstFits, secondFits], by simp [firstHashed, secondHashed],
      List.pairwise_pair.mpr swapped⟩

theorem apart_of_plain {first second : Zval} (differ : first.meaning ≠ second.meaning)
    (own : second.inheritsCompare = false) : Apart zendHash first second where
  differ := differ
  buckets := by simp [own]

theorem apart_of_hashes {first second : Zval} {firstHash secondHash : BitVec 32}
    (firstKnown : valueHash zendHash first = some firstHash)
    (secondKnown : valueHash zendHash second = some secondHash)
    (buckets : utBucket firstHash utInitialLog2 ≠ utBucket secondHash utInitialLog2) :
    Apart zendHash first second where
  differ := by
    intro same
    have hashes := @valueHash_congr zendHash _ _ same
    rw [firstKnown, secondKnown, Option.some.injEq] at hashes
    exact buckets (by rw [hashes])
  buckets := by
    intro _ hashv otherHash known otherKnown
    rw [firstKnown, Option.some.injEq] at known
    rw [secondKnown, Option.some.injEq] at otherKnown
    rwa [← known, ← otherKnown]

theorem exists_keys {type : CassType} (hashed : type.isHashed) :
    ∃ first second : Scalar, DistinctKeys zendHash type [.scalar first, .scalar second] ∧
      DistinctKeys zendHash type [.scalar second, .scalar first] := by
  have limbs : mpzLimbs 0 = [] := rfl
  cases type with
  | scalar scalarType =>
      cases scalarType with
      | varint =>
          refine ⟨.varint 0, .varint 1, distinctKeys_pair ⟨rfl, rfl⟩ ⟨rfl, rfl⟩ rfl rfl
            (apart_of_hashes rfl rfl ?_)⟩
          have one : mpzLimbs 1 = [1] := by simp [mpzLimbs]
          rw [mpzHash, mpzHash, limbs, one]
          decide
      | float =>
          exact ⟨.float 0, .float 1, distinctKeys_pair ⟨rfl, rfl⟩ ⟨rfl, rfl⟩ rfl rfl
            (apart_of_hashes rfl rfl (by decide))⟩
      | decimal =>
          refine ⟨.decimal { value := 0, scale := 0 }, .decimal { value := 0, scale := 1 },
            distinctKeys_pair ⟨rfl, rfl⟩ ⟨rfl, rfl⟩ rfl rfl (apart_of_hashes rfl rfl ?_)⟩
          rw [mpzHash, mpzHash, limbs]
          decide
      | duration =>
          exact ⟨.duration 0 0 0, .duration 0 0 1,
            distinctKeys_pair ⟨rfl, rfl⟩ ⟨rfl, rfl⟩ rfl rfl
              (apart_of_hashes rfl rfl (by decide))⟩
      | ascii | text | varchar =>
          exact ⟨.string [], .string [0], distinctKeys_pair ⟨rfl, rfl⟩ ⟨rfl, rfl⟩ rfl rfl
            (apart_of_plain (by simp [Zval.meaning, Scalar.normal]) rfl)⟩
      | int =>
          exact ⟨.long 0, .long 1, distinctKeys_pair ⟨rfl, rfl⟩ ⟨rfl, rfl⟩ rfl rfl
            (apart_of_plain (by simp [Zval.meaning, Scalar.normal]) rfl)⟩
      | double =>
          refine ⟨.double 0, .double 1, distinctKeys_pair ⟨rfl, rfl⟩ ⟨rfl, rfl⟩ rfl rfl
            (apart_of_plain ?_ rfl)⟩
          simp only [Zval.meaning, ne_eq, CassValue.scalar.injEq]
          decide
      | boolean =>
          exact ⟨.bool false, .bool true, distinctKeys_pair ⟨rfl, rfl⟩ ⟨rfl, rfl⟩ rfl rfl
            (apart_of_plain (by simp [Zval.meaning, Scalar.normal]) rfl)⟩
      | _ => cases hashed
  | _ => cases hashed

theorem Fits.inherits_of_not_plain {type : CassType} {key : Zval} (fits : Fits type key)
    (hashed : (valueHash zendHash key).isSome) (object : type.isPlain = false) :
    key.inheritsCompare := by
  obtain ⟨scalarType, scalar, rfl, rfl, holds⟩ := fits.scalar hashed
  cases scalarType.instance_of holds <;>
    first
      | rfl
      | (cases hashed; done)
      | cases object

end PhpDriver
