import PhpDriver.Data.Run
import PhpDriver.Set.Object

namespace PhpDriver

open Data

variable (zendHash : List UInt8 → BitVec 32)

/-! What a step needs for a set to stay a set of Cassandra values: a value the type
accepts, which the table can tell from those it has, and which can be hashed to be added. -/

structure SetAllowed (set : PhpSet) (action : SetAction) : Prop where
  accepted : validateObject action.object set.valueType = .accepted
  distinguished : Distinguished zendHash set.entries action.object
  hashed : ∀ object, action = .add object → (valueHash zendHash object).isSome
  room : ∀ object, action = .add object → object.meaning ∉ set.values.map Zval.meaning →
    set.entries.elements.length + 1 < 2 ^ 32

def SetAction.change : SetAction → Option (OrderedMap.Change CassValue Unit)
  | .add object => if object.isNull then none else some (.set object.meaning ())
  | .del object => some (.erase object.meaning)
  | .has _ => none

/-- A value was added and no equal value removed afterwards. -/
def Added (actions : List SetAction) (value : CassValue) : Prop :=
  ∃ before object after, actions = before ++ .add object :: after ∧
    object.isNull = false ∧ object.meaning = value ∧
    ∀ removed, .del removed ∈ after → removed.meaning ≠ value

noncomputable section

def setHistory (actions : List SetAction) : OrderedMap CassValue Unit :=
  (actions.filterMap SetAction.change).foldl OrderedMap.change []

theorem mem_setHistory_iff (actions : List SetAction) (value : CassValue) :
    value ∈ (setHistory actions).keys ↔ Added actions value := by
  rw [setHistory, OrderedMap.mem_keys_history_iff, Added]
  constructor
  · rintro ⟨before, action, _, after, rfl, set, kept⟩
    cases action with
    | add object =>
        cases null : object.isNull with
        | true => simp [SetAction.change, null] at set
        | false =>
            simp only [SetAction.change, null, Bool.false_eq_true, if_false, Option.some.injEq,
              OrderedMap.Change.set.injEq] at set
            refine ⟨before, object, after, rfl, null, set.1, ?_⟩
            rintro removed member rfl
            exact kept _ member rfl
    | del object => simp [SetAction.change] at set
    | has object => simp [SetAction.change] at set
  · rintro ⟨before, object, after, rfl, null, rfl, kept⟩
    refine ⟨before, .add object, (), after, rfl, by simp [SetAction.change, null], ?_⟩
    intro later member
    cases later with
    | add added => cases added.isNull <;> simp [SetAction.change]
    | del removed => simpa [SetAction.change] using kept removed member
    | has _ => simp [SetAction.change]

def SetAction.move (map : OrderedMap CassValue Unit) (action : SetAction) :
    OrderedMap CassValue Unit :=
  match action.change with
  | some step => map.change step
  | none => map

theorem foldl_move (actions : List SetAction) :
    actions.foldl SetAction.move [] = setHistory actions := by
  rw [setHistory, List.foldl_filterMap]
  congr 1
  funext map action
  rw [SetAction.move]
  cases action.change <;> rfl

structure SetHolds (set : PhpSet) (map : OrderedMap CassValue Unit) : Prop where
  represents : UtHash.Represents Zval.meaning (valueHash zendHash) set.entries map
  few : map.length < 2 ^ 32

variable {zendHash} {set : PhpSet} {map : OrderedMap CassValue Unit}

theorem SetHolds.values_eq (holds : SetHolds zendHash set map) :
    set.values.map Zval.meaning = map.keys := by
  rw [holds.represents.keys_eq, PhpSet.values, UtHash.handles, List.map_map, List.map_map]
  rfl

theorem SetHolds.length_keys (holds : SetHolds zendHash set map) :
    set.entries.elements.length = map.length :=
  holds.represents.length_eq

theorem SetHolds.count_eq (holds : SetHolds zendHash set map) :
    set.count.toNat = map.length := by
  rw [PhpSet.count, UtHash.count, BitVec.toNat_ofNat, holds.length_keys]
  exact Nat.mod_eq_of_lt holds.few

theorem SetHolds.find_cases (holds : SetHolds zendHash set map) {object : Zval}
    (distinguished : Distinguished zendHash set.entries object) :
    (hashFindZval zendHash set.entries object = some none ∧ object.meaning ∉ map.keys) ∨
    ∃ handle ∈ set.entries.handles,
      hashFindZval zendHash set.entries object = some (some handle) ∧
        handle.key.meaning = object.meaning ∧ object.meaning ∈ map.keys :=
  holds.represents.find_cases (distinguished.finds holds.represents.consistent)

theorem SetHolds.add (holds : SetHolds zendHash set map) {object : Zval}
    (allowed : SetAllowed zendHash set (.add object)) :
    ∃ next, setStep zendHash set (.add object) = some next ∧
      SetHolds zendHash next (SetAction.move map (.add object)) ∧
      next.valueType = set.valueType := by
  have accepted : validateObject object set.valueType = .accepted := allowed.accepted
  cases null : object.isNull with
  | true =>
      refine ⟨set, by simp [setStep, setAdd, setAddWith, null], ?_, rfl⟩
      simpa [SetAction.move, SetAction.change, null] using holds
  | false =>
      have moved : SetAction.move map (.add object) = map.set object.meaning () := by
        simp [SetAction.move, SetAction.change, null, OrderedMap.change]
      rw [moved]
      have distinguished : Distinguished zendHash set.entries object := allowed.distinguished
      obtain ⟨found, missing⟩ | ⟨handle, _, found, _, present⟩ := holds.find_cases distinguished
      · obtain ⟨entries, added, represents⟩ :=
          holds.represents.add missing (allowed.hashed object rfl) ()
        refine ⟨{ set with dirty := true, entries }, ?_, ⟨represents, ?_⟩, rfl⟩
        · simp [setStep, setAdd, setAddWith, null, accepted, found, hashAddZval, added]
        · have room := allowed.room object rfl (by rwa [holds.values_eq])
          rw [holds.length_keys] at room
          rwa [OrderedMap.set, if_neg missing, List.length_append]
      · refine ⟨set, by simp [setStep, setAdd, setAddWith, null, accepted, found], ?_, rfl⟩
        rwa [OrderedMap.set_unit_of_mem present]

theorem SetHolds.del (holds : SetHolds zendHash set map) {object : Zval}
    (allowed : SetAllowed zendHash set (.del object)) :
    ∃ next, setStep zendHash set (.del object) = some next ∧
      SetHolds zendHash next (SetAction.move map (.del object)) ∧
      next.valueType = set.valueType := by
  have accepted : validateObject object set.valueType = .accepted := allowed.accepted
  have moved : SetAction.move map (.del object) = map.erase object.meaning := rfl
  rw [moved]
  have distinguished : Distinguished zendHash set.entries object := allowed.distinguished
  obtain ⟨found, missing⟩ | ⟨handle, member, found, same, _⟩ := holds.find_cases distinguished
  · refine ⟨set, by simp [setStep, setDel, setDelWith, accepted, found], ?_, rfl⟩
    rwa [OrderedMap.erase_of_not_mem map object.meaning missing]
  · have represents := holds.represents.delete member
    rw [same] at represents
    obtain ⟨next, stepped, entries, type⟩ : ∃ next,
        setStep zendHash set (.del object) = some next ∧
          next.entries = set.entries.delete handle ∧ next.valueType = set.valueType := by
      simp [setStep, setDel, setDelWith, accepted, found]
    refine ⟨next, stepped, ⟨entries ▸ represents, ?_⟩, type⟩
    exact Nat.lt_of_le_of_lt (List.length_filter_le _ _) holds.few

theorem SetHolds.has (holds : SetHolds zendHash set map) {object : Zval}
    (accepted : validateObject object set.valueType = .accepted)
    (distinguished : Distinguished zendHash set.entries object) :
    ∃ found, setHas zendHash set object = some { result := found } ∧
      (found = true ↔ object.meaning ∈ map.keys) := by
  obtain ⟨found, missing⟩ | ⟨handle, _, found, _, present⟩ := holds.find_cases distinguished
  · exact ⟨false, by simp [setHas, setHasWith, accepted, found], by simp [missing]⟩
  · exact ⟨true, by simp [setHas, setHasWith, accepted, found], by simp [present]⟩

theorem keys_subset_add (map : OrderedMap CassValue Unit) (object : Zval) :
    map.keys ⊆ (SetAction.move map (.add object)).keys := by
  cases null : object.isNull with
  | true => simp [SetAction.move, SetAction.change, null]
  | false =>
      have moved : SetAction.move map (.add object) = map.set object.meaning () := by
        simp [SetAction.move, SetAction.change, null, OrderedMap.change]
      rw [moved, OrderedMap.keys_set]
      split
      · exact List.Subset.refl _
      · exact List.subset_append_left _ _

theorem SetHolds.step (holds : SetHolds zendHash set map) {action : SetAction}
    (allowed : SetAllowed zendHash set action) :
    ∃ next, setStep zendHash set action = some next ∧
      SetHolds zendHash next (action.move map) ∧ next.valueType = set.valueType := by
  cases action with
  | add object => exact holds.add allowed
  | del object => exact holds.del allowed
  | has object =>
      have accepted : validateObject object set.valueType = .accepted := allowed.accepted
      obtain ⟨found, answered, _⟩ := holds.has accepted allowed.distinguished
      refine ⟨set, ?_, holds, rfl⟩
      rw [setStep, answered]
      rfl

end

/-- A set holds what these actions have left in it, as a set of values does. -/
structure IsSetOf (zendHash : List UInt8 → BitVec 32) (actions : List SetAction)
    (set : PhpSet) : Prop where
  defined : ∀ action, SetAllowed zendHash set action → (setStep zendHash set action).isSome
  has_iff : ∀ object, validateObject object set.valueType = .accepted →
    Distinguished zendHash set.entries object →
    ∃ found, setHas zendHash set object = some { result := found } ∧
      (found = true ↔ Added actions object.meaning)
  count_eq : set.count.toNat = set.values.length
  mem_values_iff : ∀ value, value ∈ set.values.map Zval.meaning ↔ Added actions value
  values_nodup : (set.values.map Zval.meaning).Nodup
  values_in_order : set.values.map Zval.meaning = (setHistory actions).keys
  add_keeps : ∀ object next, SetAllowed zendHash set (.add object) →
    setStep zendHash set (.add object) = some next →
    ∀ value ∈ set.values.map Zval.meaning, value ∈ next.values.map Zval.meaning

theorem set_is_a_set_of_values (zendHash : List UInt8 → BitVec 32) {valueType : CassType}
    {actions : List SetAction} {set : PhpSet}
    (run : Run (setStep zendHash) (SetAllowed zendHash) { valueType } actions set) :
    IsSetOf zendHash actions set := by
  have empty : SetHolds zendHash { valueType } [] := ⟨.empty, by simp⟩
  have holds : SetHolds zendHash set (setHistory actions) := by
    rw [← foldl_move]
    apply run.simulates (fun set map action next holds allowed taken => ?_) empty
    obtain ⟨reached, stepped, after, _⟩ := holds.step allowed
    rw [taken, Option.some.injEq] at stepped
    rwa [stepped]
  constructor
  · intro action allowed
    obtain ⟨next, stepped, _⟩ := holds.step allowed
    rw [stepped]
    rfl
  · intro object accepted distinguished
    obtain ⟨found, answered, present⟩ := holds.has accepted distinguished
    exact ⟨found, answered, present.trans (mem_setHistory_iff actions object.meaning)⟩
  · rw [holds.count_eq, ← holds.length_keys, PhpSet.values, List.length_map]
  · intro value
    rw [holds.values_eq, mem_setHistory_iff]
  · rw [holds.values_eq]
    exact holds.represents.nodup
  · exact holds.values_eq
  · intro object next allowed taken value member
    obtain ⟨reached, stepped, after, _⟩ := holds.add allowed
    rw [taken, Option.some.injEq] at stepped
    obtain rfl := stepped
    rw [after.values_eq]
    rw [holds.values_eq] at member
    exact keys_subset_add _ object member

/-! Sets of strings, integers, doubles or booleans take every step. -/

theorem length_move_le (map : OrderedMap CassValue Unit) (action : SetAction) :
    (action.move map).length ≤ map.length + 1 := by
  rw [SetAction.move]
  split
  · exact OrderedMap.length_change_le map _
  · exact Nat.le_succ _

theorem SetHolds.plain_run {zendHash : List UInt8 → BitVec 32} {set : PhpSet}
    {map : OrderedMap CassValue Unit} (holds : SetHolds zendHash set map)
    (plain : set.valueType.isPlain) {actions : List SetAction}
    (accepted : ∀ action ∈ actions, validateObject action.object set.valueType = .accepted)
    (few : map.length + actions.length < 2 ^ 32) :
    ∃ last, Run (setStep zendHash) (SetAllowed zendHash) set actions last := by
  induction actions generalizing set map with
  | nil => exact ⟨set, .nil set⟩
  | cons action actions ih =>
      rw [List.length_cons] at few
      have first := accepted action List.mem_cons_self
      have zType := zType_of_isPlain plain first
      have allowed : SetAllowed zendHash set action := by
        refine ⟨first, .of_plain zType, ?_, ?_⟩
        · rintro object rfl
          exact valueHash_of_plain zType
        · intro object _ _
          rw [holds.length_keys]
          omega
      obtain ⟨next, stepped, after, type⟩ := holds.step allowed
      have grown := length_move_le map action
      rw [← type] at plain accepted
      obtain ⟨last, run⟩ := ih after plain
        (fun later member => accepted later (List.mem_cons_of_mem _ member)) (by omega)
      exact ⟨last, .cons allowed stepped run⟩

theorem plain_set_takes_every_step (zendHash : List UInt8 → BitVec 32) {valueType : CassType}
    (plain : valueType.isPlain) {actions : List SetAction}
    (accepted : ∀ action ∈ actions, validateObject action.object valueType = .accepted)
    (few : actions.length < 2 ^ 32) :
    ∃ set, Run (setStep zendHash) (SetAllowed zendHash) { valueType } actions set := by
  have empty : SetHolds zendHash { valueType } [] := ⟨.empty, by simp⟩
  exact empty.plain_run plain accepted (by simpa using few)

/-- Two of the integers are in one bucket. -/
theorem integers_form_a_set :
    ∃ set, Run (setStep zendInlineHash) (SetAllowed zendInlineHash)
        { valueType := .scalar .int }
        [.add (.scalar (.long 1)), .add (.scalar (.long 33)), .del (.scalar (.long 1)),
          .add (.scalar (.long 1)), .has (.scalar (.long 33))] set ∧
      IsSetOf zendInlineHash
        [.add (.scalar (.long 1)), .add (.scalar (.long 33)), .del (.scalar (.long 1)),
          .add (.scalar (.long 1)), .has (.scalar (.long 33))] set := by
  obtain ⟨set, run⟩ := @plain_set_takes_every_step zendInlineHash (.scalar .int) rfl
    [.add (.scalar (.long 1)), .add (.scalar (.long 33)), .del (.scalar (.long 1)),
      .add (.scalar (.long 1)), .has (.scalar (.long 33))]
    (by
      intro action member
      simp only [List.mem_cons, List.not_mem_nil, or_false] at member
      rcases member with rfl | rfl | rfl | rfl | rfl <;> rfl)
    (by decide)
  exact ⟨set, run, set_is_a_set_of_values _ run⟩

/-- The floats 1 and 2 share a bucket, in which Zend's comparison finds them equal: with
the one added the set has the other, and adding that is lost. -/
theorem set_with_one_has_two :
    ∃ set, [.add (.scalar (.float 0x3f800000))].foldlM (setStep zendInlineHash)
        { valueType := .scalar .float } = some set ∧
      setHas zendInlineHash set (.scalar (.float 0x40000000)) = some { result := true } ∧
      ¬ Added [.add (.scalar (.float 0x3f800000))] (Zval.scalar (.float 0x40000000)).meaning ∧
      (setAdd zendInlineHash set (.scalar (.float 0x40000000))).map
          (fun added => (added.1.count, added.2)) = some (1, { result := true }) := by
  refine ⟨_, rfl, rfl, ?_, rfl⟩
  rintro ⟨before, object, after, actions, _, same, _⟩
  have member : SetAction.add object ∈ [SetAction.add (.scalar (.float 0x3f800000))] := by
    rw [actions]
    simp
  simp only [List.mem_singleton, SetAction.add.injEq] at member
  rw [member] at same
  simp only [Zval.meaning, CassValue.scalar.injEq] at same
  exact absurd same (by decide)

end PhpDriver
