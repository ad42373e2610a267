import PhpDriver.Util.Decoded
import PhpDriver.Util.Shown

namespace PhpDriver

open Data

/-! `php_driver_set_properties` and `php_driver_map_properties`. -/

variable (zendHash : List UInt8 → BitVec 32) (sorting : ComparisonSort)

structure SetProperties where
  type : CassType
  values : List Zval

def setProperties (set : PhpSet) : SetProperties where
  type := .set set.valueType
  values := shown zendHash sorting set.values

structure MapProperties where
  type : CassType
  keys : List Zval
  values : List Zval

def mapProperties (map : PhpMap) : MapProperties where
  type := .map map.keyType map.valueType
  keys := shown zendHash sorting map.keys
  values := shown zendHash sorting map.values

/-- The properties show one type and the same values at the same places. -/
structure SetProperties.Alike (first second : SetProperties) : Prop where
  type : first.type = second.type
  values : List.Forall₂ Zval.Same first.values second.values

structure MapProperties.Alike (first second : MapProperties) : Prop where
  type : first.type = second.type
  keys : List.Forall₂ Zval.Same first.keys second.keys
  values : List.Forall₂ Zval.Same first.values second.values

/-- What additions and removals in any order make of a new set. -/
def SetReached (valueType : CassType) (set : PhpSet) : Prop :=
  ∃ actions : List SetAction, (∀ action ∈ actions, Built zendHash action.object) ∧
    actions.foldlM (setStep zendHash) { valueType } = some set

def MapReached (keyType valueType : CassType) (map : PhpMap) : Prop :=
  ∃ actions : List MapAction,
    (∀ action ∈ actions, ∀ object ∈ action.objects, Built zendHash object) ∧
      actions.foldlM (mapStep zendHash) { keyType, valueType } = some map

def SetPropertiesDetermine (first second : PhpSet) : Prop :=
  (setProperties zendHash sorting first).Alike (setProperties zendHash sorting second) ↔
    first.toZval.Same second.toZval

def MapPropertiesDetermine (first second : PhpMap) : Prop :=
  (mapProperties zendHash sorting first).Alike (mapProperties zendHash sorting second) ↔
    first.toZval.Same second.toZval

variable {zendHash sorting}

/-! The properties of two sets, and of two maps with settled values. -/

theorem setStep_valueType {set next : PhpSet} {action : SetAction}
    (taken : setStep zendHash set action = some next) : next.valueType = set.valueType := by
  cases action with
  | add object =>
      obtain ⟨_, stepped, rfl⟩ := Option.map_eq_some_iff.mp taken
      exact (setAdd_cases stepped).1
  | del object =>
      obtain ⟨_, stepped, rfl⟩ := Option.map_eq_some_iff.mp taken
      exact (setDel_cases stepped).1
  | has object =>
      obtain ⟨_, _, rfl⟩ := Option.map_eq_some_iff.mp taken
      rfl

theorem mapStep_types {map next : PhpMap} {action : MapAction}
    (taken : mapStep zendHash map action = some next) :
    next.keyType = map.keyType ∧ next.valueType = map.valueType := by
  cases action with
  | set key value =>
      obtain ⟨_, stepped, rfl⟩ := Option.map_eq_some_iff.mp taken
      exact ⟨(mapSet_cases stepped).1, (mapSet_cases stepped).2.1⟩
  | del key =>
      obtain ⟨_, stepped, rfl⟩ := Option.map_eq_some_iff.mp taken
      exact ⟨(mapDel_cases stepped).1, (mapDel_cases stepped).2.1⟩
  | get key | has key =>
      obtain ⟨_, _, rfl⟩ := Option.map_eq_some_iff.mp taken
      exact ⟨rfl, rfl⟩

theorem SetReached.holds {valueType : CassType} {set : PhpSet}
    (reached : SetReached zendHash valueType set) :
    set.valueType = valueType ∧ set.Holds zendHash (Built zendHash) := by
  obtain ⟨actions, built, taken⟩ := reached
  refine ⟨?_, (PhpSet.Holds.empty valueType).run built taken⟩
  have run : Run (setStep zendHash) (fun _ _ => True) { valueType } actions set :=
    .of_foldlM (fun _ _ _ => trivial) taken
  refine @Run.invariant _ _ _ _ (fun state => state.valueType = valueType) ?_ _ _ _ run rfl
  intro state action next kept _ stepped
  exact (setStep_valueType stepped).trans kept

theorem MapReached.holds {keyType valueType : CassType} {map : PhpMap}
    (reached : MapReached zendHash keyType valueType map) :
    map.keyType = keyType ∧ map.valueType = valueType ∧
      map.Holds zendHash (Built zendHash) := by
  obtain ⟨actions, built, taken⟩ := reached
  have run : Run (mapStep zendHash) (fun _ _ => True) { keyType, valueType } actions map :=
    .of_foldlM (fun _ _ _ => trivial) taken
  have types : map.keyType = keyType ∧ map.valueType = valueType := by
    refine @Run.invariant _ _ _ _
      (fun state => state.keyType = keyType ∧ state.valueType = valueType) ?_ _ _ _ run
      ⟨rfl, rfl⟩
    intro state action next kept _ stepped
    obtain ⟨sameKey, sameValue⟩ := mapStep_types stepped
    exact ⟨sameKey.trans kept.1, sameValue.trans kept.2⟩
  exact ⟨types.1, types.2, (PhpMap.Holds.empty keyType valueType).run built taken⟩

theorem PhpSet.same_iff (first second : PhpSet) :
    first.toZval.Same second.toZval ↔ SameValues first.values second.values := by
  rw [Zval.Same, PhpSet.toZval, PhpSet.toZval, Zval.meaning, Zval.meaning,
    Zval.meanings_eq_map, Zval.meanings_eq_map]
  constructor
  · intro same
    cases same with
    | set order each => exact ⟨_, order, each⟩
  · rintro ⟨arranged, order, each⟩
    exact .set order each

theorem SetReached.determine_iff {valueType : CassType} {first second : PhpSet}
    (firstReached : SetReached zendHash valueType first)
    (secondReached : SetReached zendHash valueType second) :
    SetPropertiesDetermine zendHash sorting first second ↔
      (first.toZval.Same second.toZval → (∃ value ∈ first.values, value.inheritsCompare) →
        List.Forall₂ Zval.Same first.values second.values) := by
  obtain ⟨firstType, firstHolds⟩ := firstReached.holds
  obtain ⟨secondType, secondHolds⟩ := secondReached.holds
  have firstKeys := firstHolds.entries.distinctKeys
  have secondKeys := secondHolds.entries.distinctKeys
  rw [firstType] at firstKeys
  rw [secondType] at secondKeys
  have alike : (setProperties zendHash sorting first).Alike
      (setProperties zendHash sorting second) ↔ ShownAlike first.values second.values := by
    have values : List.Forall₂ Zval.Same (setProperties zendHash sorting first).values
        (setProperties zendHash sorting second).values ↔
          ShownAlike first.values second.values := shown_keys_iff firstKeys secondKeys
    rw [← values]
    constructor
    · exact SetProperties.Alike.values
    · intro values
      exact ⟨by rw [setProperties, setProperties, firstType, secondType], values⟩
  rw [SetPropertiesDetermine, alike, first.same_iff]
  constructor
  · intro determined equal inherits
    exact (determined.mpr equal).order inherits
  · intro order
    exact ⟨ShownAlike.same, fun equal => ⟨equal, order equal⟩⟩

theorem MapReached.alike_iff {keyType valueType : CassType} {first second : PhpMap}
    (firstReached : MapReached zendHash keyType valueType first)
    (secondReached : MapReached zendHash keyType valueType second) :
    (mapProperties zendHash sorting first).Alike (mapProperties zendHash sorting second) ↔
      ShownAlike first.keys second.keys ∧
        List.Forall₂ Zval.Same (shown zendHash sorting first.values)
          (shown zendHash sorting second.values) := by
  obtain ⟨firstKeyType, firstType, firstHolds⟩ := firstReached.holds
  obtain ⟨secondKeyType, secondType, secondHolds⟩ := secondReached.holds
  have firstKeys := firstHolds.entries.distinctKeys
  have secondKeys := secondHolds.entries.distinctKeys
  rw [firstKeyType] at firstKeys
  rw [secondKeyType] at secondKeys
  have keys : List.Forall₂ Zval.Same (mapProperties zendHash sorting first).keys
      (mapProperties zendHash sorting second).keys ↔ ShownAlike first.keys second.keys :=
    shown_keys_iff firstKeys secondKeys
  rw [← keys]
  constructor
  · intro alike
    exact ⟨alike.keys, alike.values⟩
  · rintro ⟨sameKeys, sameValues⟩
    refine ⟨?_, sameKeys, sameValues⟩
    rw [mapProperties, mapProperties, firstKeyType, secondKeyType, firstType, secondType]

theorem MapReached.values_fit {keyType valueType : CassType} {map : PhpMap}
    (reached : MapReached zendHash keyType valueType map) :
    ∀ value ∈ map.values, Fits valueType value ∧ Built zendHash value := by
  obtain ⟨_, type, holds⟩ := reached.holds
  intro value member
  obtain ⟨element, inElements, rfl⟩ := List.mem_map.mp member
  rw [← type]
  exact ⟨holds.values element inElements, (holds.property element inElements).2⟩

theorem MapReached.determine_iff {keyType valueType : CassType} {first second : PhpMap}
    (settled : Settled zendHash valueType)
    (firstReached : MapReached zendHash keyType valueType first)
    (secondReached : MapReached zendHash keyType valueType second) :
    MapPropertiesDetermine zendHash sorting first second ↔
      (first.toZval.Same second.toZval ↔
        ShownAlike first.keys second.keys ∧ ShownAlike first.values second.values) := by
  rw [MapPropertiesDetermine, firstReached.alike_iff secondReached,
    shown_iff settled firstReached.values_fit secondReached.values_fit]
  exact ⟨Iff.symm, Iff.symm⟩

theorem PhpMap.keys_eq (map : PhpMap) : map.keys = map.pairsInOrder.map Prod.fst := by
  rw [PhpMap.keys, PhpMap.pairsInOrder, List.map_map]
  rfl

theorem PhpMap.values_eq (map : PhpMap) : map.values = map.pairsInOrder.map Prod.snd := by
  rw [PhpMap.values, PhpMap.pairsInOrder, List.map_map]
  rfl

theorem MapReached.distinctKeys {keyType valueType : CassType} {map : PhpMap}
    (reached : MapReached zendHash keyType valueType map) :
    DistinctKeys zendHash keyType map.keys := by
  obtain ⟨type, _, holds⟩ := reached.holds
  rw [← type]
  exact holds.entries.distinctKeys

theorem PhpMap.same_iff {first second : PhpMap} :
    first.toZval.Same second.toZval ↔
      CassValue.Same
        (.map (first.pairsInOrder.map fun entry => (entry.1.meaning, entry.2.meaning)))
        (.map (second.pairsInOrder.map fun entry => (entry.1.meaning, entry.2.meaning))) := by
  rw [Zval.Same, PhpMap.toZval, PhpMap.toZval, Zval.meaning, Zval.meaning,
    Zval.entryMeanings_eq_map, Zval.entryMeanings_eq_map]

/-- Two maps with plain keys and one value are the same when they have the same keys. -/
theorem MapReached.same_iff {keyType valueType : CassType} {first second : PhpMap}
    (plain : keyType.isPlain) (single : ¬ HoldsSeveral zendHash valueType)
    (firstReached : MapReached zendHash keyType valueType first)
    (secondReached : MapReached zendHash keyType valueType second) :
    first.toZval.Same second.toZval ↔
      ShownAlike first.keys second.keys ∧ ShownAlike first.values second.values := by
  have oneValue : ∀ value ∈ first.values, ∀ other ∈ second.values, value.Same other := by
    intro value member other otherMember
    by_contra differ
    obtain ⟨fits, built⟩ := firstReached.values_fit value member
    obtain ⟨otherFits, otherBuilt⟩ := secondReached.values_fit other otherMember
    exact single ⟨value, other, built, fits, otherBuilt, otherFits, differ⟩
  have keysOf (map : PhpMap) : (map.pairsInOrder.map fun entry =>
      (entry.1.meaning, entry.2.meaning)).map Prod.fst = map.keys.map Zval.meaning := by
    rw [map.keys_eq, List.map_map, List.map_map]
    rfl
  have valuesOf (map : PhpMap) : (map.pairsInOrder.map fun entry =>
      (entry.1.meaning, entry.2.meaning)).map Prod.snd = map.values.map Zval.meaning := by
    rw [map.values_eq, List.map_map, List.map_map]
    rfl
  rw [PhpMap.same_iff]
  constructor
  · intro same
    cases same with
    | @map _ arranged _ order keys values =>
        have sameKeys : SameValues first.keys second.keys := by
          refine ⟨arranged.map Prod.fst, ?_, by rwa [keysOf] at keys⟩
          rw [← keysOf]
          exact order.map Prod.fst
        have sameValues : SameValues first.values second.values := by
          refine ⟨arranged.map Prod.snd, ?_, by rwa [valuesOf] at values⟩
          rw [← valuesOf]
          exact order.map Prod.snd
        refine ⟨⟨sameKeys, ?_⟩, sameValues, fun _ => ?_⟩
        · rintro ⟨key, member, inherits⟩
          rw [(firstReached.distinctKeys.fits key member).inherits_of_isPlain plain] at inherits
          cases inherits
        · exact (forall₂_iff_length oneValue).mpr sameValues.length_eq
  · rintro ⟨⟨⟨arrangedKeys, order, each⟩, _⟩, alike⟩
    rw [← keysOf] at order each
    obtain ⟨arranged, entriesOrder, rfl⟩ := exists_arranged order
    refine .map entriesOrder each ?_
    have values := entriesOrder.map Prod.snd
    rw [valuesOf] at values
    rw [valuesOf, forall₂_iff_length]
    · rw [← values.length_eq, List.length_map, List.length_map, alike.same.length_eq]
    · intro value member other otherMember
      rw [← values.mem_iff] at member
      obtain ⟨firstValue, inFirst, rfl⟩ := List.mem_map.mp member
      obtain ⟨secondValue, inSecond, rfl⟩ := List.mem_map.mp otherMember
      exact oneValue firstValue inFirst secondValue inSecond

theorem exists_reached {keyType valueType : CassType} {pairs : List (Zval × Zval)}
    (keys : DistinctKeys zendHash keyType (pairs.map Prod.fst))
    (values : ∀ pair ∈ pairs, Fits valueType pair.2)
    (built : ∀ pair ∈ pairs, Built zendHash pair.1 ∧ Built zendHash pair.2) :
    ∃ map, MapReached zendHash keyType valueType map ∧ map.pairsInOrder = pairs := by
  obtain ⟨last, taken, lastPairs⟩ :=
    @setEntries_distinct zendHash { keyType, valueType } pairs .empty keys values
  refine ⟨last, ⟨pairs.map fun pair => .set pair.1 pair.2, ?_, ?_⟩, lastPairs⟩
  · intro action member object inAction
    obtain ⟨pair, inPairs, rfl⟩ := List.mem_map.mp member
    simp only [MapAction.objects, List.mem_cons, List.not_mem_nil, or_false] at inAction
    rcases inAction with rfl | rfl
    · exact (built pair inPairs).1
    · exact (built pair inPairs).2
  · rw [List.foldlM_map]
    exact taken

/-- Keys that inherit their comparison are shown in the order in which they came. -/
theorem exists_order_shown {keyType valueType : CassType} (hashed : keyType.isHashed)
    (object : keyType.isPlain = false) (any : HoldsAny zendHash valueType) :
    ∃ first second, MapReached zendHash keyType valueType first ∧
      MapReached zendHash keyType valueType second ∧
      ¬ (mapProperties zendHash sorting first).Alike (mapProperties zendHash sorting second) ∧
      first.toZval.Same second.toZval := by
  obtain ⟨value, built, fits⟩ := any
  obtain ⟨key, otherKey, keys, swapped⟩ := @exists_keys zendHash keyType hashed
  obtain ⟨first, firstReached, firstPairs⟩ := @exists_reached zendHash keyType valueType
    [(.scalar key, value), (.scalar otherKey, value)] keys (by simp [fits])
    (by simp [built, Built.scalar])
  obtain ⟨second, secondReached, secondPairs⟩ := @exists_reached zendHash keyType valueType
    [(.scalar otherKey, value), (.scalar key, value)] swapped (by simp [fits])
    (by simp [built, Built.scalar])
  refine ⟨first, second, firstReached, secondReached, ?_, ?_⟩
  · intro alike
    have order := ((firstReached.alike_iff secondReached).mp alike).1.order
    rw [first.keys_eq, second.keys_eq, firstPairs, secondPairs] at order
    have inherits := (keys.fits _ List.mem_cons_self).inherits_of_not_plain
      (keys.hashed _ List.mem_cons_self) object
    cases order ⟨_, List.mem_cons_self, inherits⟩ with
    | cons same _ =>
        rw [Zval.same_scalar_iff] at same
        exact (List.pairwise_pair.mp keys.apart).differ same
  · rw [PhpMap.same_iff, firstPairs, secondPairs]
    exact .map (List.Perm.swap _ _ _) (CassValue.each_refl _) (CassValue.each_refl _)

theorem CassValue.not_same_swapped {key otherKey : Scalar} {value other : CassValue}
    (apart : key ≠ otherKey) (differ : ¬ value.Same other) :
    ¬ Same (.map [(.scalar key, value), (.scalar otherKey, other)])
      (.map [(.scalar otherKey, value), (.scalar key, other)]) := by
  intro same
  cases same with
  | @map _ arranged _ order keys values =>
      cases arranged with
      | nil => cases keys
      | cons entry rest => cases rest with
        | nil => obtain _ | ⟨_, ⟨⟩⟩ := keys
        | cons later rest =>
            -- the second of the entries has the second key
            simp only [List.map_cons, List.map_nil, List.forall₂_cons] at keys values
            have member : later ∈ entry :: later :: rest := by simp
            rw [← order.mem_iff] at member
            simp only [List.mem_cons, List.not_mem_nil, or_false] at member
            rcases member with rfl | rfl
            · exact differ values.2.1
            · have same := CassValue.scalar.inj (CassValue.same_scalar_iff.mp keys.2.1)
              exact apart same.symm

/-- Values that are swapped between two plain keys are shown as they were. -/
theorem exists_swapped_shown {keyType valueType : CassType} (plain : keyType.isPlain)
    (hashed : keyType.isHashed) (several : HoldsSeveral zendHash valueType) :
    ∃ first second, MapReached zendHash keyType valueType first ∧
      MapReached zendHash keyType valueType second ∧
      (mapProperties zendHash sorting first).Alike (mapProperties zendHash sorting second) ∧
      ¬ first.toZval.Same second.toZval := by
  obtain ⟨value, other, built, fits, otherBuilt, otherFits, differ⟩ := several
  obtain ⟨key, otherKey, keys, swapped⟩ := @exists_keys zendHash keyType hashed
  obtain ⟨first, firstReached, firstPairs⟩ := @exists_reached zendHash keyType valueType
    [(.scalar key, value), (.scalar otherKey, other)] keys (by simp [fits, otherFits])
    (by simp [built, otherBuilt, Built.scalar])
  obtain ⟨second, secondReached, secondPairs⟩ := @exists_reached zendHash keyType valueType
    [(.scalar otherKey, value), (.scalar key, other)] swapped (by simp [fits, otherFits])
    (by simp [built, otherBuilt, Built.scalar])
  refine ⟨first, second, firstReached, secondReached, ?_, ?_⟩
  · rw [firstReached.alike_iff secondReached, first.keys_eq, second.keys_eq, first.values_eq,
      second.values_eq, firstPairs, secondPairs]
    refine ⟨⟨⟨_, List.Perm.swap _ _ _, CassValue.each_refl _⟩, ?_⟩, ?_⟩
    · rintro ⟨inherited, member, inherits⟩
      rw [(keys.fits inherited member).inherits_of_isPlain plain] at inherits
      cases inherits
    · exact Zval.forall₂_same_refl _
  · intro same
    rw [PhpMap.same_iff, firstPairs, secondPairs] at same
    have apart := (List.pairwise_pair.mp keys.apart).differ
    exact CassValue.not_same_swapped (mt (congrArg CassValue.scalar) apart) differ same

theorem map_types_iff (keyType valueType : CassType) :
    (∀ first second, MapReached zendHash keyType valueType first →
      MapReached zendHash keyType valueType second →
      MapPropertiesDetermine zendHash sorting first second) ↔
      keyType.isHashed = false ∨ ¬ HoldsAny zendHash valueType ∨
        keyType.isPlain = true ∧ ¬ HoldsSeveral zendHash valueType := by
  constructor
  · intro determined
    cases hashed : keyType.isHashed with
    | false => exact Or.inl rfl
    | true =>
        refine Or.inr (or_iff_not_imp_left.mpr fun any => ?_)
        rw [not_not] at any
        cases plain : keyType.isPlain with
        | false =>
            obtain ⟨first, second, firstReached, secondReached, apart, same⟩ :=
              @exists_order_shown zendHash sorting keyType valueType hashed plain any
            exact absurd ((determined first second firstReached secondReached).mpr same) apart
        | true =>
            refine ⟨rfl, fun several => ?_⟩
            obtain ⟨first, second, firstReached, secondReached, alike, apart⟩ :=
              @exists_swapped_shown zendHash sorting keyType valueType plain hashed several
            exact apart ((determined first second firstReached secondReached).mp alike)
  · intro known first second firstReached secondReached
    have settled : keyType.isPlain = true ∧ ¬ HoldsSeveral zendHash valueType →
        MapPropertiesDetermine zendHash sorting first second := by
      rintro ⟨plain, single⟩
      rw [firstReached.determine_iff (Or.inr (Or.inr (Or.inr single))) secondReached]
      exact firstReached.same_iff plain single secondReached
    have empty : (∀ map, MapReached zendHash keyType valueType map → map.pairsInOrder = []) →
        MapPropertiesDetermine zendHash sorting first second := by
      intro none
      have firstNone := none first firstReached
      have secondNone := none second secondReached
      rw [MapPropertiesDetermine, firstReached.alike_iff secondReached, PhpMap.same_iff,
        first.keys_eq, second.keys_eq, first.values_eq, second.values_eq, firstNone, secondNone]
      refine iff_of_true ⟨⟨sameValues_of_forall₂ .nil, fun _ => .nil⟩, ?_⟩
        (CassValue.Same.refl _)
      exact Zval.forall₂_same_refl _
    rcases known with unhashed | none | single
    · apply empty
      intro map reached
      apply List.eq_nil_iff_forall_not_mem.mpr
      intro entry member
      have inKeys : entry.1 ∈ map.keys := by
        rw [map.keys_eq]
        exact List.mem_map_of_mem member
      have distinct := reached.distinctKeys
      rw [(distinct.fits _ inKeys).isHashed (distinct.hashed _ inKeys)] at unhashed
      cases unhashed
    · apply empty
      intro map reached
      apply List.eq_nil_iff_forall_not_mem.mpr
      intro entry member
      have inValues : entry.2 ∈ map.values := by
        rw [map.values_eq]
        exact List.mem_map_of_mem member
      obtain ⟨fits, built⟩ := reached.values_fit _ inValues
      exact none ⟨_, built, fits⟩
    · exact settled single

end PhpDriver
