import PhpDriver.Data.Run
import PhpDriver.Map.Object

namespace PhpDriver

open Data

variable (zendHash : List UInt8 → BitVec 32)

/-! What a step needs for a map to stay a map of Cassandra values: a key the type
accepts, which the table can tell from those it has, and which can be hashed to be set. -/

def MapAction.key : MapAction → Zval
  | .set key _ => key
  | .del key => key
  | .get key => key
  | .has key => key

structure MapAllowed (map : PhpMap) (action : MapAction) : Prop where
  accepted : validateObject action.key map.keyType = .accepted
  distinguished : Distinguished zendHash map.entries action.key
  hashed : ∀ key value, action = .set key value → (valueHash zendHash key).isSome
  room : ∀ key value, action = .set key value → key.meaning ∉ map.keys.map Zval.meaning →
    map.entries.elements.length + 1 < 2 ^ 32

/-- What an action does to the map of values. A null and a value of another type are
refused. -/
def MapAction.change (valueType : CassType) : MapAction → Option (OrderedMap.Change CassValue Zval)
  | .set key value =>
      if key.isNull || value.isNull || validateObject value valueType ≠ .accepted then none
      else some (.set key.meaning value)
  | .del key => some (.erase key.meaning)
  | .get _ => none
  | .has _ => none

def LastSet (valueType : CassType) (actions : List MapAction) (key : CassValue)
    (value : Zval) : Prop :=
  ∃ before action after, actions = before ++ action :: after ∧
    action.change valueType = some (.set key value) ∧
    ∀ later ∈ after, ∀ step, later.change valueType = some step → step.key ≠ key

namespace PhpMap

def pairs (map : PhpMap) : OrderedMap CassValue Zval :=
  (map.keys.map Zval.meaning).zip map.values

theorem pairs_eq (map : PhpMap) :
    map.pairs = map.entries.elements.map fun element => (element.key.meaning, element.value) := by
  rw [pairs, keys, values, List.map_map, List.zip_map']
  rfl

end PhpMap

noncomputable section

def mapHistory (valueType : CassType) (actions : List MapAction) : OrderedMap CassValue Zval :=
  (actions.filterMap (MapAction.change valueType)).foldl OrderedMap.change []

theorem get_mapHistory_iff (valueType : CassType) (actions : List MapAction) (key : CassValue)
    (value : Zval) :
    (mapHistory valueType actions).get key = some value ↔ LastSet valueType actions key value :=
  OrderedMap.get_history_eq_some_iff _ actions key value

def MapAction.move (valueType : CassType) (map : OrderedMap CassValue Zval)
    (action : MapAction) : OrderedMap CassValue Zval :=
  match action.change valueType with
  | some step => map.change step
  | none => map

theorem foldl_mapMove (valueType : CassType) (actions : List MapAction) :
    actions.foldl (MapAction.move valueType) [] = mapHistory valueType actions := by
  rw [mapHistory, List.foldl_filterMap]
  congr 1
  funext map action
  rw [MapAction.move]
  cases action.change valueType <;> rfl

structure MapHolds (valueType : CassType) (map : PhpMap) (content : OrderedMap CassValue Zval) :
    Prop where
  type : map.valueType = valueType
  represents : UtHash.Represents Zval.meaning (valueHash zendHash) map.entries content
  few : content.length < 2 ^ 32

variable {zendHash} {valueType : CassType} {map : PhpMap} {content : OrderedMap CassValue Zval}

namespace MapHolds

theorem pairs_eq (holds : MapHolds zendHash valueType map content) : map.pairs = content := by
  rw [PhpMap.pairs_eq]
  exact holds.represents.entries

theorem keys_eq (holds : MapHolds zendHash valueType map content) :
    map.keys.map Zval.meaning = content.keys := by
  rw [holds.represents.keys_eq, PhpMap.keys, UtHash.handles, List.map_map, List.map_map]
  rfl

theorem length_eq (holds : MapHolds zendHash valueType map content) :
    map.entries.elements.length = content.length :=
  holds.represents.length_eq

theorem count_eq (holds : MapHolds zendHash valueType map content) :
    map.count.toNat = content.length := by
  rw [PhpMap.count, UtHash.count, BitVec.toNat_ofNat, holds.length_eq]
  exact Nat.mod_eq_of_lt holds.few

theorem find_cases (holds : MapHolds zendHash valueType map content) {key : Zval}
    (distinguished : Distinguished zendHash map.entries key) :
    (hashFindZval zendHash map.entries key = some none ∧ key.meaning ∉ content.keys) ∨
    ∃ handle ∈ map.entries.handles,
      hashFindZval zendHash map.entries key = some (some handle) ∧
        handle.key.meaning = key.meaning ∧ key.meaning ∈ content.keys :=
  holds.represents.find_cases (distinguished.finds holds.represents.consistent)

theorem set (holds : MapHolds zendHash valueType map content) {key value : Zval}
    (allowed : MapAllowed zendHash map (.set key value)) :
    ∃ next, mapStep zendHash map (.set key value) = some next ∧
      MapHolds zendHash valueType next (MapAction.move valueType content (.set key value)) ∧
      next.keyType = map.keyType := by
  have accepted : validateObject key map.keyType = .accepted := allowed.accepted
  have distinguished : Distinguished zendHash map.entries key := allowed.distinguished
  cases nullKey : key.isNull with
  | true =>
      refine ⟨map, by simp [mapStep, mapSet, mapSetWith, nullKey], ?_, rfl⟩
      simpa [MapAction.move, MapAction.change, nullKey] using holds
  | false =>
  cases nullValue : value.isNull with
  | true =>
      refine ⟨map, by simp [mapStep, mapSet, mapSetWith, nullKey, nullValue], ?_, rfl⟩
      simpa [MapAction.move, MapAction.change, nullValue] using holds
  | false =>
  by_cases valueAccepted : validateObject value valueType = .accepted
  · have moved : MapAction.move valueType content (.set key value) =
        content.set key.meaning value := by
      simp [MapAction.move, MapAction.change, nullKey, nullValue, valueAccepted,
        OrderedMap.change]
    have validValue : validateObject value map.valueType = .accepted := by
      rw [holds.type, valueAccepted]
    rw [moved]
    obtain ⟨found, missing⟩ | ⟨handle, member, found, same, present⟩ :=
      holds.find_cases distinguished
    · obtain ⟨entries, added, represents⟩ :=
        holds.represents.add missing (allowed.hashed key value rfl) value
      refine ⟨{ map with dirty := true, entries }, ?_, ⟨holds.type, represents, ?_⟩, rfl⟩
      · simp [mapStep, mapSet, mapSetWith, nullKey, nullValue, accepted, validValue, found, hashAddZval,
          added]
      · have room := allowed.room key value rfl (by rwa [holds.keys_eq])
        rw [holds.length_eq] at room
        rwa [OrderedMap.set, if_neg missing, List.length_append]
    · have represents := holds.represents.setValue member value
      rw [same] at represents
      refine ⟨{ map with dirty := true, entries := map.entries.setValue handle value }, ?_,
        ⟨holds.type, represents, ?_⟩, rfl⟩
      · simp [mapStep, mapSet, mapSetWith, nullKey, nullValue, accepted, validValue, found]
      · rw [OrderedMap.set, if_pos present, List.length_map]
        exact holds.few
  · have moved : MapAction.move valueType content (.set key value) = content := by
      simp [MapAction.move, MapAction.change, valueAccepted]
    rw [moved]
    refine ⟨map, ?_, holds, rfl⟩
    rw [← holds.type] at valueAccepted
    cases validated : validateObject value map.valueType with
    | accepted => exact absurd validated valueAccepted
    | expecting _ | mismatched =>
        simp [mapStep, mapSet, mapSetWith, nullKey, nullValue, accepted, validated]

theorem del (holds : MapHolds zendHash valueType map content) {key : Zval}
    (allowed : MapAllowed zendHash map (.del key)) :
    ∃ next, mapStep zendHash map (.del key) = some next ∧
      MapHolds zendHash valueType next (MapAction.move valueType content (.del key)) ∧
      next.keyType = map.keyType := by
  have accepted : validateObject key map.keyType = .accepted := allowed.accepted
  have distinguished : Distinguished zendHash map.entries key := allowed.distinguished
  have moved : MapAction.move valueType content (.del key) = content.erase key.meaning := rfl
  rw [moved]
  obtain ⟨found, missing⟩ | ⟨handle, member, found, same, _⟩ := holds.find_cases distinguished
  · refine ⟨map, by simp [mapStep, mapDel, mapDelWith, accepted, found], ?_, rfl⟩
    rwa [OrderedMap.erase_of_not_mem content key.meaning missing]
  · have represents := holds.represents.delete member
    rw [same] at represents
    obtain ⟨next, stepped, entries, types⟩ : ∃ next,
        mapStep zendHash map (.del key) = some next ∧
          next.entries = map.entries.delete handle ∧
          next.valueType = map.valueType ∧ next.keyType = map.keyType := by
      simp [mapStep, mapDel, mapDelWith, accepted, found]
    refine ⟨next, stepped, ⟨types.1.trans holds.type, entries ▸ represents, ?_⟩, types.2⟩
    exact Nat.lt_of_le_of_lt (List.length_filter_le _ _) holds.few

theorem get (holds : MapHolds zendHash valueType map content) {key : Zval}
    (accepted : validateObject key map.keyType = .accepted)
    (distinguished : Distinguished zendHash map.entries key) :
    mapGet zendHash map key =
      some ({ result := (content.get key.meaning).isSome }, content.get key.meaning) := by
  obtain ⟨found, missing⟩ | ⟨handle, member, found, same, present⟩ :=
    holds.find_cases distinguished
  · rw [(content.get_eq_none_iff key.meaning).mpr missing]
    simp [mapGet, mapGetWith, accepted, found]
  · have value := holds.represents.valueAt_eq member
    rw [same] at value
    rw [(content.mem_keys_iff key.meaning).mp present]
    simp [mapGet, mapGetWith, accepted, found, value]

theorem has (holds : MapHolds zendHash valueType map content) {key : Zval}
    (accepted : validateObject key map.keyType = .accepted)
    (distinguished : Distinguished zendHash map.entries key) :
    mapHas zendHash map key = some { result := (content.get key.meaning).isSome } := by
  obtain ⟨found, missing⟩ | ⟨handle, member, found, _, present⟩ :=
    holds.find_cases distinguished
  · rw [(content.get_eq_none_iff key.meaning).mpr missing]
    simp [mapHas, mapHasWith, accepted, found]
  · rw [(content.mem_keys_iff key.meaning).mp present]
    simp [mapHas, mapHasWith, accepted, found]

theorem step (holds : MapHolds zendHash valueType map content) {action : MapAction}
    (allowed : MapAllowed zendHash map action) :
    ∃ next, mapStep zendHash map action = some next ∧
      MapHolds zendHash valueType next (action.move valueType content) ∧
      next.keyType = map.keyType := by
  cases action with
  | set key value => exact holds.set allowed
  | del key => exact holds.del allowed
  | get key =>
      have accepted : validateObject key map.keyType = .accepted := allowed.accepted
      refine ⟨map, ?_, holds, rfl⟩
      rw [mapStep, holds.get accepted allowed.distinguished]
      rfl
  | has key =>
      have accepted : validateObject key map.keyType = .accepted := allowed.accepted
      refine ⟨map, ?_, holds, rfl⟩
      rw [mapStep, holds.has accepted allowed.distinguished]
      rfl

end MapHolds

theorem MapAction.key_of_change {action : MapAction} {step : OrderedMap.Change CassValue Zval}
    (changed : action.change valueType = some step) : step.key = action.key.meaning := by
  cases action with
  | set key value =>
      rw [MapAction.change] at changed
      split at changed
      · cases changed
      · obtain rfl := Option.some.inj changed
        rfl
  | del key =>
      obtain rfl := Option.some.inj changed
      rfl
  | get key => cases changed
  | has key => cases changed

theorem MapAction.get_move {action : MapAction} {other : CassValue}
    (apart : other ≠ action.key.meaning) :
    (action.move valueType content).get other = content.get other := by
  rw [MapAction.move]
  split
  · rename_i step changed
    rw [OrderedMap.get_change, if_neg]
    rwa [MapAction.key_of_change changed]
  · rfl

theorem length_mapMove_le (action : MapAction) :
    (action.move valueType content).length ≤ content.length + 1 := by
  rw [MapAction.move]
  split
  · exact OrderedMap.length_change_le content _
  · exact Nat.le_succ _

end

/-- A map has the pairs these actions have left in it, as a finite map does. -/
structure IsMapOf (zendHash : List UInt8 → BitVec 32) (actions : List MapAction)
    (map : PhpMap) : Prop where
  defined : ∀ action, MapAllowed zendHash map action → (mapStep zendHash map action).isSome
  get_iff : ∀ key, validateObject key map.keyType = .accepted →
    Distinguished zendHash map.entries key →
    ∃ got, mapGet zendHash map key = some ({ result := got.isSome }, got) ∧
      ∀ value, got = some value ↔ LastSet map.valueType actions key.meaning value
  has_iff : ∀ key, validateObject key map.keyType = .accepted →
    Distinguished zendHash map.entries key →
    ∃ found, mapHas zendHash map key = some { result := found } ∧
      (found = true ↔ ∃ value, LastSet map.valueType actions key.meaning value)
  count_eq : map.count.toNat = map.keys.length
  keys_nodup : (map.keys.map Zval.meaning).Nodup
  aligned : map.values.length = map.keys.length
  pairs_in_order : map.pairs = mapHistory map.valueType actions
  others_kept : ∀ action next, MapAllowed zendHash map action →
    mapStep zendHash map action = some next →
    ∀ other, other ≠ action.key.meaning → next.pairs.get other = map.pairs.get other

theorem map_is_a_map_of_values (zendHash : List UInt8 → BitVec 32) {keyType valueType : CassType}
    {actions : List MapAction} {map : PhpMap}
    (run : Run (mapStep zendHash) (MapAllowed zendHash) { keyType, valueType } actions map) :
    IsMapOf zendHash actions map := by
  have empty : MapHolds zendHash valueType { keyType, valueType } [] := ⟨rfl, .empty, by simp⟩
  have holds : MapHolds zendHash valueType map (mapHistory valueType actions) := by
    rw [← foldl_mapMove]
    apply run.simulates (fun map content action next holds allowed taken => ?_) empty
    obtain ⟨reached, stepped, after, _⟩ := holds.step allowed
    rw [taken, Option.some.injEq] at stepped
    rwa [stepped]
  obtain rfl := holds.type
  constructor
  · intro action allowed
    obtain ⟨next, stepped, _⟩ := holds.step allowed
    rw [stepped]
    rfl
  · intro key accepted distinguished
    exact ⟨_, holds.get accepted distinguished, fun value =>
      get_mapHistory_iff map.valueType actions key.meaning value⟩
  · intro key accepted distinguished
    refine ⟨_, holds.has accepted distinguished, ?_⟩
    rw [Option.isSome_iff_exists]
    exact exists_congr fun value => get_mapHistory_iff map.valueType actions key.meaning value
  · rw [holds.count_eq, ← holds.length_eq, PhpMap.keys, List.length_map]
  · rw [holds.keys_eq]
    exact holds.represents.nodup
  · rw [PhpMap.values, PhpMap.keys, List.length_map, List.length_map]
  · exact holds.pairs_eq
  · intro action next allowed taken other apart
    obtain ⟨reached, stepped, after, _⟩ := holds.step allowed
    rw [taken, Option.some.injEq] at stepped
    obtain rfl := stepped
    rw [after.pairs_eq, holds.pairs_eq, MapAction.get_move apart]

/-! Maps from strings, integers, doubles or booleans take every step. -/

theorem MapHolds.plain_run {zendHash : List UInt8 → BitVec 32} {valueType : CassType}
    {map : PhpMap} {content : OrderedMap CassValue Zval}
    (holds : MapHolds zendHash valueType map content) (plain : map.keyType.isPlain)
    {actions : List MapAction}
    (accepted : ∀ action ∈ actions, validateObject action.key map.keyType = .accepted)
    (few : content.length + actions.length < 2 ^ 32) :
    ∃ last, Run (mapStep zendHash) (MapAllowed zendHash) map actions last := by
  induction actions generalizing map content with
  | nil => exact ⟨map, .nil map⟩
  | cons action actions ih =>
      rw [List.length_cons] at few
      have first := accepted action List.mem_cons_self
      have zType := zType_of_isPlain plain first
      have allowed : MapAllowed zendHash map action := by
        refine ⟨first, .of_plain zType, ?_, ?_⟩
        · rintro key value rfl
          exact valueHash_of_plain zType
        · intro key value _ _
          rw [holds.length_eq]
          omega
      obtain ⟨next, stepped, after, type⟩ := holds.step allowed
      have grown := @length_mapMove_le valueType content action
      rw [← type] at plain accepted
      obtain ⟨last, run⟩ := ih after plain
        (fun later member => accepted later (List.mem_cons_of_mem _ member)) (by omega)
      exact ⟨last, .cons allowed stepped run⟩

theorem plain_map_takes_every_step (zendHash : List UInt8 → BitVec 32)
    {keyType valueType : CassType} (plain : keyType.isPlain) {actions : List MapAction}
    (accepted : ∀ action ∈ actions, validateObject action.key keyType = .accepted)
    (few : actions.length < 2 ^ 32) :
    ∃ map, Run (mapStep zendHash) (MapAllowed zendHash) { keyType, valueType } actions map := by
  have empty : MapHolds zendHash valueType { keyType, valueType } [] := ⟨rfl, .empty, by simp⟩
  exact empty.plain_run plain accepted (by simpa using few)

/-- Two of the integers are in one bucket. -/
theorem integers_form_a_map :
    ∃ map, Run (mapStep zendInlineHash) (MapAllowed zendInlineHash)
        { keyType := .scalar .int, valueType := .scalar .boolean }
        [.set (.scalar (.long 1)) (.scalar (.bool true)),
          .set (.scalar (.long 33)) (.scalar (.bool true)),
          .set (.scalar (.long 1)) (.scalar (.bool false)), .del (.scalar (.long 33)),
          .get (.scalar (.long 1)), .has (.scalar (.long 33))] map ∧
      IsMapOf zendInlineHash
        [.set (.scalar (.long 1)) (.scalar (.bool true)),
          .set (.scalar (.long 33)) (.scalar (.bool true)),
          .set (.scalar (.long 1)) (.scalar (.bool false)), .del (.scalar (.long 33)),
          .get (.scalar (.long 1)), .has (.scalar (.long 33))] map := by
  obtain ⟨map, run⟩ := @plain_map_takes_every_step zendInlineHash (.scalar .int)
    (.scalar .boolean) rfl
    [.set (.scalar (.long 1)) (.scalar (.bool true)),
      .set (.scalar (.long 33)) (.scalar (.bool true)),
      .set (.scalar (.long 1)) (.scalar (.bool false)), .del (.scalar (.long 33)),
      .get (.scalar (.long 1)), .has (.scalar (.long 33))]
    (by
      intro action member
      simp only [List.mem_cons, List.not_mem_nil, or_false] at member
      rcases member with rfl | rfl | rfl | rfl | rfl | rfl <;> rfl)
    (by decide)
  exact ⟨map, run, map_is_a_map_of_values _ run⟩

/-- The floats 1 and 2 share a bucket, in which Zend's comparison finds them equal:
setting the one replaces the value of the other. -/
theorem setting_two_replaces_one :
    ∃ map, [.set (.scalar (.float 0x3f800000)) (.scalar (.long 10)),
          .set (.scalar (.float 0x40000000)) (.scalar (.long 20))].foldlM
          (mapStep zendInlineHash)
          { keyType := .scalar .float, valueType := .scalar .int } = some map ∧
      mapGet zendInlineHash map (.scalar (.float 0x3f800000)) =
        some ({ result := true }, some (.scalar (.long 20))) ∧
      LastSet (.scalar .int)
        [.set (.scalar (.float 0x3f800000)) (.scalar (.long 10)),
          .set (.scalar (.float 0x40000000)) (.scalar (.long 20))]
        (Zval.scalar (.float 0x3f800000)).meaning (.scalar (.long 10)) ∧
      map.count = 1 := by
  refine ⟨_, rfl, rfl, ⟨[], _, _, rfl, rfl, ?_⟩, rfl⟩
  intro later member step changed
  rw [List.mem_singleton] at member
  subst member
  rw [MapAction.key_of_change changed]
  simp only [MapAction.key, Zval.meaning, ne_eq, CassValue.scalar.injEq]
  decide

end PhpDriver
