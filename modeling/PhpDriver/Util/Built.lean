import PhpDriver.Collection.Object
import PhpDriver.Data.Run
import PhpDriver.Map.Object
import PhpDriver.Set.Object
import PhpDriver.Tuple.Object
import PhpDriver.UserTypeValue.Object
import PhpDriver.Util.Entries

namespace PhpDriver

open Data

variable {zendHash : List UInt8 → BitVec 32}

/-! What a step can do to a set. -/

theorem setAdd_cases {set next : PhpSet} {object : Zval} {answer : Answer}
    (taken : setAdd zendHash set object = some (next, answer)) :
    next.valueType = set.valueType ∧
      (next.entries = set.entries ∨
        Fits set.valueType object ∧ hashFindZval zendHash set.entries object = some none ∧
          hashAddZval zendHash set.entries object () = some next.entries) := by
  rw [setAdd, setAddWith] at taken
  simp only [find_installed, add_installed] at taken
  split at taken
  · obtain ⟨rfl, _⟩ := Prod.mk.inj (Option.some.inj taken)
    exact ⟨rfl, Or.inl rfl⟩
  · rename_i nonnull
    split at taken
    · rename_i accepted
      rw [Option.bind_eq_bind, Option.bind_eq_some_iff] at taken
      obtain ⟨entry, found, taken⟩ := taken
      cases entry with
      | none =>
          dsimp only at taken
          rw [Option.bind_eq_bind, Option.bind_eq_some_iff] at taken
          obtain ⟨entries, added, taken⟩ := taken
          obtain ⟨rfl, _⟩ := Prod.mk.inj (Option.some.inj taken)
          exact ⟨rfl, Or.inr ⟨⟨by simpa using nonnull, accepted⟩, found, added⟩⟩
      | some entry =>
          obtain ⟨rfl, _⟩ := Prod.mk.inj (Option.some.inj taken)
          exact ⟨rfl, Or.inl rfl⟩
    · obtain ⟨rfl, _⟩ := Prod.mk.inj (Option.some.inj taken)
      exact ⟨rfl, Or.inl rfl⟩

theorem setDel_cases {set next : PhpSet} {object : Zval} {answer : Answer}
    (taken : setDel zendHash set object = some (next, answer)) :
    next.valueType = set.valueType ∧
      (next.entries = set.entries ∨ ∃ handle,
        hashFindZval zendHash set.entries object = some (some handle) ∧
          next.entries = set.entries.delete handle) := by
  rw [setDel, setDelWith] at taken
  simp only [find_installed] at taken
  split at taken
  · rw [Option.bind_eq_bind, Option.bind_eq_some_iff] at taken
    obtain ⟨entry, found, taken⟩ := taken
    cases entry with
    | none =>
        obtain ⟨rfl, _⟩ := Prod.mk.inj (Option.some.inj taken)
        exact ⟨rfl, Or.inl rfl⟩
    | some entry =>
        obtain ⟨rfl, _⟩ := Prod.mk.inj (Option.some.inj taken)
        exact ⟨rfl, Or.inr ⟨entry, found, rfl⟩⟩
  · obtain ⟨rfl, _⟩ := Prod.mk.inj (Option.some.inj taken)
    exact ⟨rfl, Or.inl rfl⟩

structure PhpSet.Holds (zendHash : List UInt8 → BitVec 32) (property : Zval → Prop)
    (set : PhpSet) : Prop where
  entries : WellBuilt zendHash set.valueType set.entries
  property : ∀ element ∈ set.entries.elements, property element.key

namespace PhpSet.Holds

variable {property : Zval → Prop} {set next : PhpSet}

theorem empty (valueType : CassType) : Holds zendHash property { valueType } where
  entries := .empty
  property := by simp

theorem setAdd (holds : Holds zendHash property set) {object : Zval} {answer : Answer}
    (satisfied : property object)
    (taken : setAdd zendHash set object = some (next, answer)) :
    Holds zendHash property next := by
  obtain ⟨type, same | ⟨fits, missing, added⟩⟩ := setAdd_cases taken
  · exact ⟨by rw [type, same]; exact holds.entries, by rw [same]; exact holds.property⟩
  · obtain ⟨kept, address, hashv, elements⟩ := holds.entries.insert fits missing added
    refine ⟨by rw [type]; exact kept, ?_⟩
    intro element member
    rw [elements, List.mem_append, List.mem_singleton] at member
    rcases member with old | rfl
    · exact holds.property element old
    · exact satisfied

theorem setDel (holds : Holds zendHash property set) {object : Zval} {answer : Answer}
    (taken : setDel zendHash set object = some (next, answer)) :
    Holds zendHash property next := by
  obtain ⟨type, same | ⟨handle, found, entries⟩⟩ := setDel_cases taken
  · exact ⟨by rw [type, same]; exact holds.entries, by rw [same]; exact holds.property⟩
  · have member := holds.entries.consistent.mem_of_find found
    refine ⟨by rw [type, entries]; exact holds.entries.delete member, ?_⟩
    intro element inElements
    rw [entries] at inElements
    exact holds.property element (List.mem_filter.mp inElements).1

theorem step (holds : Holds zendHash property set) {action : SetAction}
    (satisfied : property action.object) (taken : setStep zendHash set action = some next) :
    Holds zendHash property next := by
  cases action with
  | add object =>
      obtain ⟨_, stepped, rfl⟩ := Option.map_eq_some_iff.mp taken
      exact holds.setAdd satisfied stepped
  | del object =>
      obtain ⟨_, stepped, rfl⟩ := Option.map_eq_some_iff.mp taken
      exact holds.setDel stepped
  | has object =>
      obtain ⟨_, _, rfl⟩ := Option.map_eq_some_iff.mp taken
      exact holds

theorem run (holds : Holds zendHash property set) {actions : List SetAction}
    (satisfied : ∀ action ∈ actions, property action.object)
    (taken : actions.foldlM (setStep zendHash) set = some next) :
    Holds zendHash property next := by
  have run : Run (setStep zendHash) (fun _ action => property action.object) set actions next :=
    .of_foldlM (fun _ => satisfied) taken
  exact run.invariant (fun _ _ _ holds => holds.step) holds

end PhpSet.Holds

theorem mapSet_cases {map next : PhpMap} {key value : Zval} {answer : Answer}
    (taken : mapSet zendHash map key value = some (next, answer)) :
    next.keyType = map.keyType ∧ next.valueType = map.valueType ∧
      (next.entries = map.entries ∨
        Fits map.keyType key ∧ Fits map.valueType value ∧
          (hashFindZval zendHash map.entries key = some none ∧
              hashAddZval zendHash map.entries key value = some next.entries ∨
            ∃ handle, hashFindZval zendHash map.entries key = some (some handle) ∧
              next.entries = map.entries.setValue handle value)) := by
  rw [mapSet, mapSetWith] at taken
  simp only [find_installed, add_installed] at taken
  split at taken
  · obtain ⟨rfl, _⟩ := Prod.mk.inj (Option.some.inj taken)
    exact ⟨rfl, rfl, Or.inl rfl⟩
  rename_i keyNonnull
  split at taken
  · obtain ⟨rfl, _⟩ := Prod.mk.inj (Option.some.inj taken)
    exact ⟨rfl, rfl, Or.inl rfl⟩
  rename_i valueNonnull
  split at taken
  · rename_i keyAccepted
    split at taken
    · rename_i valueAccepted
      have keyFits : Fits map.keyType key := ⟨by simpa using keyNonnull, keyAccepted⟩
      have valueFits : Fits map.valueType value := ⟨by simpa using valueNonnull, valueAccepted⟩
      rw [Option.bind_eq_bind, Option.bind_eq_some_iff] at taken
      obtain ⟨entry, found, taken⟩ := taken
      cases entry with
      | none =>
          dsimp only at taken
          rw [Option.bind_eq_bind, Option.bind_eq_some_iff] at taken
          obtain ⟨entries, added, taken⟩ := taken
          obtain ⟨rfl, _⟩ := Prod.mk.inj (Option.some.inj taken)
          exact ⟨rfl, rfl, Or.inr ⟨keyFits, valueFits, Or.inl ⟨found, added⟩⟩⟩
      | some entry =>
          obtain ⟨rfl, _⟩ := Prod.mk.inj (Option.some.inj taken)
          exact ⟨rfl, rfl, Or.inr ⟨keyFits, valueFits, Or.inr ⟨entry, found, rfl⟩⟩⟩
    · obtain ⟨rfl, _⟩ := Prod.mk.inj (Option.some.inj taken)
      exact ⟨rfl, rfl, Or.inl rfl⟩
  · obtain ⟨rfl, _⟩ := Prod.mk.inj (Option.some.inj taken)
    exact ⟨rfl, rfl, Or.inl rfl⟩

theorem mapDel_cases {map next : PhpMap} {key : Zval} {answer : Answer}
    (taken : mapDel zendHash map key = some (next, answer)) :
    next.keyType = map.keyType ∧ next.valueType = map.valueType ∧
      (next.entries = map.entries ∨ ∃ handle,
        hashFindZval zendHash map.entries key = some (some handle) ∧
          next.entries = map.entries.delete handle) := by
  rw [mapDel, mapDelWith] at taken
  simp only [find_installed] at taken
  split at taken
  · rw [Option.bind_eq_bind, Option.bind_eq_some_iff] at taken
    obtain ⟨entry, found, taken⟩ := taken
    cases entry with
    | none =>
        obtain ⟨rfl, _⟩ := Prod.mk.inj (Option.some.inj taken)
        exact ⟨rfl, rfl, Or.inl rfl⟩
    | some entry =>
        obtain ⟨rfl, _⟩ := Prod.mk.inj (Option.some.inj taken)
        exact ⟨rfl, rfl, Or.inr ⟨entry, found, rfl⟩⟩
  · obtain ⟨rfl, _⟩ := Prod.mk.inj (Option.some.inj taken)
    exact ⟨rfl, rfl, Or.inl rfl⟩

structure PhpMap.Holds (zendHash : List UInt8 → BitVec 32) (property : Zval → Prop)
    (map : PhpMap) : Prop where
  entries : WellBuilt zendHash map.keyType map.entries
  values : ∀ element ∈ map.entries.elements, Fits map.valueType element.value
  property : ∀ element ∈ map.entries.elements, property element.key ∧ property element.value

namespace PhpMap.Holds

variable {property : Zval → Prop} {map next : PhpMap}

theorem empty (keyType valueType : CassType) :
    Holds zendHash property { keyType, valueType } where
  entries := .empty
  values := by simp
  property := by simp

private theorem setValue (holds : Holds zendHash property map) {value : Zval}
    (fits : Fits map.valueType value) (satisfied : property value) (handle : UtHandle Zval)
    (keyType : next.keyType = map.keyType) (valueType : next.valueType = map.valueType)
    (entries : next.entries = map.entries.setValue handle value) :
    Holds zendHash property next := by
  refine ⟨by rw [keyType, entries]; exact holds.entries.setValue handle value, ?_, ?_⟩
  · intro element member
    rw [entries] at member
    obtain ⟨old, oldMember, rfl⟩ := List.mem_map.mp member
    rw [valueType]
    split
    · exact fits
    · exact holds.values old oldMember
  · intro element member
    rw [entries] at member
    obtain ⟨old, oldMember, rfl⟩ := List.mem_map.mp member
    split
    · exact ⟨(holds.property old oldMember).1, satisfied⟩
    · exact holds.property old oldMember

theorem mapSet (holds : Holds zendHash property map) {key value : Zval} {answer : Answer}
    (keySatisfied : property key) (valueSatisfied : property value)
    (taken : mapSet zendHash map key value = some (next, answer)) :
    Holds zendHash property next := by
  obtain ⟨keyType, valueType, same | ⟨keyFits, valueFits, cases⟩⟩ := mapSet_cases taken
  · exact ⟨by rw [keyType, same]; exact holds.entries,
      by rw [valueType, same]; exact holds.values, by rw [same]; exact holds.property⟩
  obtain ⟨missing, added⟩ | ⟨handle, found, entries⟩ := cases
  · obtain ⟨kept, address, hashv, elements⟩ := holds.entries.insert keyFits missing added
    refine ⟨by rw [keyType]; exact kept, ?_, ?_⟩
    · intro element member
      rw [elements, List.mem_append, List.mem_singleton] at member
      rw [valueType]
      rcases member with old | rfl
      · exact holds.values element old
      · exact valueFits
    · intro element member
      rw [elements, List.mem_append, List.mem_singleton] at member
      rcases member with old | rfl
      · exact holds.property element old
      · exact ⟨keySatisfied, valueSatisfied⟩
  · exact holds.setValue valueFits valueSatisfied handle keyType valueType entries

theorem mapDel (holds : Holds zendHash property map) {key : Zval} {answer : Answer}
    (taken : mapDel zendHash map key = some (next, answer)) :
    Holds zendHash property next := by
  obtain ⟨keyType, valueType, same | ⟨handle, found, entries⟩⟩ := mapDel_cases taken
  · exact ⟨by rw [keyType, same]; exact holds.entries,
      by rw [valueType, same]; exact holds.values, by rw [same]; exact holds.property⟩
  have member := holds.entries.consistent.mem_of_find found
  refine ⟨by rw [keyType, entries]; exact holds.entries.delete member, ?_, ?_⟩
  · intro element inElements
    rw [entries] at inElements
    rw [valueType]
    exact holds.values element (List.mem_filter.mp inElements).1
  · intro element inElements
    rw [entries] at inElements
    exact holds.property element (List.mem_filter.mp inElements).1

theorem step (holds : Holds zendHash property map) {action : MapAction}
    (satisfied : ∀ object ∈ action.objects, property object)
    (taken : mapStep zendHash map action = some next) : Holds zendHash property next := by
  cases action with
  | set key value =>
      obtain ⟨_, stepped, rfl⟩ := Option.map_eq_some_iff.mp taken
      exact holds.mapSet (satisfied key (by simp [MapAction.objects]))
        (satisfied value (by simp [MapAction.objects])) stepped
  | del key =>
      obtain ⟨_, stepped, rfl⟩ := Option.map_eq_some_iff.mp taken
      exact holds.mapDel stepped
  | get key | has key =>
      obtain ⟨_, _, rfl⟩ := Option.map_eq_some_iff.mp taken
      exact holds

theorem run (holds : Holds zendHash property map) {actions : List MapAction}
    (satisfied : ∀ action ∈ actions, ∀ object ∈ action.objects, property object)
    (taken : actions.foldlM (mapStep zendHash) map = some next) :
    Holds zendHash property next := by
  have run : Run (mapStep zendHash)
      (fun _ action => ∀ object ∈ action.objects, property object) map actions next :=
    .of_foldlM (fun _ => satisfied) taken
  exact run.invariant (fun _ _ _ holds => holds.step) holds

end PhpMap.Holds

/-! The values that constructors and mutators can build, called in any order with any
arguments as long as nothing undefined happens. -/

inductive Built (zendHash : List UInt8 → BitVec 32) : Zval → Prop
  | null : Built zendHash .null
  | scalar (value : Scalar) : Built zendHash (.scalar value)
  | foreign : Built zendHash .foreign
  | collection {valueType : CassType} {arguments : List Zval} {created : PhpCollection}
      {actions : List CollectionAction}
      (argumentsBuilt : ∀ object ∈ arguments, Built zendHash object)
      (creation : PhpCollection.create { valueType } arguments = (created, none))
      (objectsBuilt : ∀ action ∈ actions, ∀ object ∈ action.objects, Built zendHash object) :
      Built zendHash (actions.foldl collectionStep created).toZval
  -- `create` of the types below adds or sets its arguments one after the other
  | set {valueType : CassType} {actions : List SetAction} {last : PhpSet}
      (objectsBuilt : ∀ action ∈ actions, Built zendHash action.object)
      (taken : actions.foldlM (setStep zendHash) { valueType } = some last) :
      Built zendHash last.toZval
  | map {keyType valueType : CassType} {actions : List MapAction} {last : PhpMap}
      (objectsBuilt : ∀ action ∈ actions, ∀ object ∈ action.objects, Built zendHash object)
      (taken : actions.foldlM (mapStep zendHash) { keyType, valueType } = some last) :
      Built zendHash last.toZval
  | tuple {types : List CassType} {actions : List TupleAction}
      (valuesBuilt : ∀ action ∈ actions, Built zendHash action.value) :
      Built zendHash (actions.foldl tupleStep { types }).toZval
  -- the names are the keys of a hash table
  | userTypeValue {types : OrderedMap (List UInt8) CassType}
      {actions : List UserTypeValueAction} (names : types.keys.Nodup)
      (valuesBuilt : ∀ action ∈ actions, Built zendHash action.value) :
      Built zendHash (actions.foldl userTypeValueStep { types }).toZval

inductive WellFormed (zendHash : List UInt8 → BitVec 32) : Zval → Prop
  | null : WellFormed zendHash .null
  | scalar (value : Scalar) : WellFormed zendHash (.scalar value)
  | foreign : WellFormed zendHash .foreign
  | collection {valueType : CassType} {values : List Zval}
      (accepted : ∀ value ∈ values, validateObject value valueType = .accepted)
      (parts : ∀ value ∈ values, WellFormed zendHash value) :
      WellFormed zendHash (.collection valueType values)
  | set {valueType : CassType} {values : List Zval}
      (keys : DistinctKeys zendHash valueType values)
      (parts : ∀ value ∈ values, WellFormed zendHash value) :
      WellFormed zendHash (.set valueType values)
  | map {keyType valueType : CassType} {entries : List (Zval × Zval)}
      (keys : DistinctKeys zendHash keyType (entries.map Prod.fst))
      (values : ∀ entry ∈ entries, Fits valueType entry.2)
      (keyParts : ∀ entry ∈ entries, WellFormed zendHash entry.1)
      (valueParts : ∀ entry ∈ entries, WellFormed zendHash entry.2) :
      WellFormed zendHash (.map keyType valueType entries)
  | tuple {types : List CassType} {values : OrderedMap Nat Zval}
      (typed : FieldsTyped (types[·]?) values)
      (parts : ∀ field ∈ values, WellFormed zendHash field.2) :
      WellFormed zendHash (.tuple types values)
  | userTypeValue {types : OrderedMap (List UInt8) CassType}
      {values : OrderedMap (List UInt8) Zval} (names : types.keys.Nodup)
      (typed : FieldsTyped types.get values)
      (parts : ∀ field ∈ values, WellFormed zendHash field.2) :
      WellFormed zendHash (.userTypeValue types values)

namespace WellFormed

theorem of_set {set : PhpSet} (holds : set.Holds zendHash (WellFormed zendHash)) :
    WellFormed zendHash set.toZval := by
  refine .set holds.entries.distinctKeys ?_
  intro value member
  obtain ⟨element, inElements, rfl⟩ := List.mem_map.mp member
  exact holds.property element inElements

theorem of_map {map : PhpMap} (holds : map.Holds zendHash (WellFormed zendHash)) :
    WellFormed zendHash map.toZval := by
  have keys := holds.entries.distinctKeys
  have keysEq : map.pairsInOrder.map Prod.fst = map.entries.elements.map (·.key) := by
    rw [PhpMap.pairsInOrder, List.map_map]
    rfl
  rw [← keysEq] at keys
  refine .map keys ?_ ?_ ?_
  all_goals
    intro entry member
    obtain ⟨element, inElements, rfl⟩ := List.mem_map.mp member
  · exact holds.values element inElements
  · exact (holds.property element inElements).1
  · exact (holds.property element inElements).2

end WellFormed

theorem Built.wellFormed {value : Zval} (built : Built zendHash value) :
    WellFormed zendHash value := by
  induction built with
  | null => exact .null
  | scalar value => exact .scalar value
  | foreign => exact .foreign
  | @collection valueType arguments created actions _ creation _ argumentsFormed objectsFormed =>
      have start := (PhpCollection.Holds.empty valueType).create argumentsFormed
      rw [creation] at start
      have holds := start.run objectsFormed
      exact .collection holds.accepted holds.property
  | set _ taken objectsFormed => exact .of_set ((PhpSet.Holds.empty _).run objectsFormed taken)
  | map _ taken objectsFormed =>
      exact .of_map ((PhpMap.Holds.empty _ _).run objectsFormed taken)
  | @tuple types actions _ valuesFormed =>
      have start : PhpTuple.Holds (WellFormed zendHash) { types } := ⟨.empty _, by simp⟩
      have holds := start.run valuesFormed
      exact .tuple holds.typed holds.property
  | @userTypeValue types actions names _ valuesFormed =>
      have start : PhpUserTypeValue.Holds (WellFormed zendHash) { types } :=
        ⟨names, .empty _, by simp⟩
      have holds := start.run valuesFormed
      exact .userTypeValue holds.names holds.typed holds.property

end PhpDriver
