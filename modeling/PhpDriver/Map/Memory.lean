import PhpDriver.Map.Iterator
import PhpDriver.Set.Memory

namespace PhpDriver

open Data

/-! The `Map` objects with their entries in memory, as `Map.c` has them. -/

structure MapMemory where
  keyType : CassType
  valueType : CassType
  entries : UtMemory Zval Zval
  dirty : Bool := true
  iterCurr : Option Nat := none
  iterTemp : Option Nat := none

namespace MapMemory

section

variable (handlers : ValueHandlers) (map : MapMemory) (key value : Zval)

def set : Option (MapMemory × Answer) :=
  if key.isNull then
    some (map,
      { result := false,
        thrown := some (.invalid "Invalid key: null is not supported inside maps") })
  else if value.isNull then
    some (map,
      { result := false,
        thrown := some (.invalid "Invalid value: null is not supported inside maps") })
  else
    match validateObject key map.keyType with
    | .accepted =>
        match validateObject value map.valueType with
        | .accepted => do
            let entry ← map.entries.find handlers.hash handlers.compare key
            match entry with
            | none =>
                let entries ←
                  (map.entries.alloc key value).addKeyptr handlers.hash map.entries.fresh
                some ({ map with dirty := true, entries }, { result := true })
            | some entry =>
                let entries ← map.entries.storeValue entry value
                some ({ map with dirty := true, entries }, { result := true })
        | refused => some (map, refused.refusal)
    | refused => some (map, refused.refusal)

def get : Option (Answer × Option Zval) :=
  match validateObject key map.keyType with
  | .accepted => do
      let entry ← map.entries.find handlers.hash handlers.compare key
      match entry with
      | some entry =>
          let node ← map.entries.nodes entry
          some ({ result := true }, some node.value)
      | none => some ({ result := false }, none)
  | refused => some (refused.refusal, none)

def del : Option (MapMemory × Answer) :=
  match validateObject key map.keyType with
  | .accepted => do
      let entry ← map.entries.find handlers.hash handlers.compare key
      match entry with
      | some entry => do
          let iterTemp ← map.entries.stepOver entry map.iterTemp
          let entries ← map.entries.delete entry
          let entries ← entries.free entry
          some ({ map with dirty := true, iterTemp, entries }, { result := true })
      | none => some (map, { result := false })
  | refused => some (map, refused.refusal)

def has : Option Answer :=
  match validateObject key map.keyType with
  | .accepted => do
      let entry ← map.entries.find handlers.hash handlers.compare key
      some { result := entry.isSome }
  | refused => some refused.refusal

end

section

variable (map : MapMemory)

def populateKeys : Option (List Zval) :=
  UtMemory.iter (fun _ => map.entries)
    (fun array curr => (map.entries.nodes curr).map fun node => array ++ [node.key]) []

def populateValues : Option (List Zval) :=
  UtMemory.iter (fun _ => map.entries)
    (fun array curr => (map.entries.nodes curr).map fun node => array ++ [node.value]) []

def count : Option (BitVec 32) :=
  map.entries.count

def current : Option Zval :=
  match map.iterCurr with
  | none => some .null
  | some entry => (map.entries.nodes entry).map (·.value)

def key : Option Zval :=
  match map.iterCurr with
  | none => some .null
  | some entry => (map.entries.nodes entry).map (·.key)

def next : Option MapMemory := do
  let iterTemp ← map.entries.nextOf map.iterTemp
  some { map with iterCurr := map.iterTemp, iterTemp }

def rewind : Option MapMemory := do
  let iterTemp ← map.entries.nextOf map.entries.head
  some { map with iterCurr := map.entries.head, iterTemp }

end

end MapMemory

def mapMemoryCall (map : MapMemory) : ValueHandlers × MapCall → Option MapMemory
  | (handlers, .set key value) | (handlers, .offsetSet key value) =>
      (map.set handlers key value).map Prod.fst
  | (handlers, .get key) | (handlers, .offsetGet key) => (map.get handlers key).map fun _ => map
  | (handlers, .remove key) | (handlers, .offsetUnset key) => (map.del handlers key).map Prod.fst
  | (handlers, .has key) | (handlers, .offsetExists key) => (map.has handlers key).map fun _ => map
  | (_, .current) => map.current.map fun _ => map
  | (_, .key) => map.key.map fun _ => map
  | (_, .next) => map.next
  | (_, .valid) => some map
  | (_, .rewind) => map.rewind

structure MapRefines (memory : MapMemory) (map : IteratedMap) : Prop where
  keyType : memory.keyType = map.keyType
  valueType : memory.valueType = map.valueType
  entries : memory.entries.Refines map.entries
  dirty : memory.dirty = map.dirty
  iterCurr : memory.iterCurr = map.iterCurr
  iterTemp : memory.iterTemp = map.iterTemp

namespace MapRefines

variable {memory : MapMemory} {map : IteratedMap} {handlers : ValueHandlers} {key value : Zval}

theorem start (keyType valueType : CassType) (uninitialized : Nat → UtHh) :
    MapRefines { keyType, valueType, entries := { uninitialized } } { keyType, valueType } where
  keyType := rfl
  valueType := rfl
  entries := .start uninitialized
  dirty := rfl
  iterCurr := rfl
  iterTemp := rfl

theorem find (refines : MapRefines memory map) (handlers : ValueHandlers) (key : Zval) :
    memory.entries.find handlers.hash handlers.compare key =
      (map.entries.find handlers.hash handlers.compare key).map (·.map UtHandle.address) :=
  refines.entries.find

theorem set (refines : MapRefines memory map) {changed : PhpMap × Answer}
    (room : map.entries.Room) (sets : mapSetWith handlers map.toPhpMap key value = some changed) :
    ∃ other, memory.set handlers key value = some (other, changed.2) ∧
      MapRefines other { map with toPhpMap := changed.1 } := by
  rw [mapSetWith] at sets
  rw [MapMemory.set, refines.keyType, refines.valueType]
  split at sets
  · rename_i null
    obtain rfl := Option.some.inj sets
    exact ⟨memory, if_pos null, refines⟩
  rename_i keyNonnull
  rw [if_neg keyNonnull]
  split at sets
  · rename_i null
    obtain rfl := Option.some.inj sets
    exact ⟨memory, if_pos null, refines⟩
  rename_i valueNonnull
  rw [if_neg valueNonnull]
  generalize validateObject key map.keyType = validatedKey at sets ⊢
  generalize validateObject value map.valueType = validated at sets ⊢
  cases validatedKey with
  | accepted =>
    cases validated with
    | accepted =>
      simp only [refines.find] at sets ⊢
      rw [Option.bind_eq_bind, Option.bind_eq_some_iff] at sets
      obtain ⟨entry, found, sets⟩ := sets
      rw [found]
      cases entry with
      | none =>
          obtain ⟨entries, grown, sets⟩ := Option.bind_eq_some_iff.mp sets
          obtain rfl := Option.some.inj sets
          obtain ⟨after, stored, afterRefines⟩ :=
            UtMemory.addKeyptr_refines refines.entries grown room
          refine ⟨{ memory with dirty := true, entries := after }, ?_, ?_⟩
          · simp only [Option.map_some, Option.map_none, Option.bind_eq_bind, Option.bind_some,
              stored, refines.keyType, refines.valueType]
          · exact { refines with entries := afterRefines, dirty := rfl }
      | some handle =>
          obtain rfl := Option.some.inj sets
          obtain ⟨after, stored, afterRefines⟩ :=
            refines.entries.storeValue (refines.entries.linked.mem_of_find found) value
          refine ⟨{ memory with dirty := true, entries := after }, ?_, ?_⟩
          · simp only [Option.map_some, Option.bind_eq_bind, Option.bind_some, stored,
              refines.keyType, refines.valueType]
          · exact { refines with entries := afterRefines, dirty := rfl }
    | expecting | mismatched =>
      obtain rfl := Option.some.inj sets
      exact ⟨memory, rfl, refines⟩
  | expecting | mismatched =>
    obtain rfl := Option.some.inj sets
    exact ⟨memory, rfl, refines⟩

theorem get (refines : MapRefines memory map) (handlers : ValueHandlers) (key : Zval) :
    memory.get handlers key = mapGetWith handlers map.toPhpMap key := by
  rw [MapMemory.get, mapGetWith, refines.keyType, refines.find]
  cases found : map.entries.find handlers.hash handlers.compare key with
  | none => rfl
  | some entry =>
      cases entry with
      | none => rfl
      | some handle =>
          obtain ⟨node, nodeEq, _⟩ :=
            refines.entries.listed.stored (refines.entries.linked.mem_of_find found)
          have read := refines.entries.read (·.value) UtElement.value (fun _ _ => rfl)
            handle.address
          rw [nodeEq, Option.map_some] at read
          simp only [Option.map_some, nodeEq, Option.bind_eq_bind, Option.bind_some, read]
          rfl

theorem del (refines : MapRefines memory map) {left : PhpMap × Answer}
    (deletes : mapDelWith handlers map.toPhpMap key = some left) :
    ∃ other, memory.del handlers key = some (other, left.2) ∧
      MapRefines other { map with toPhpMap := left.1 } := by
  rw [mapDelWith] at deletes
  rw [MapMemory.del, refines.keyType]
  generalize validateObject key map.keyType = validated at deletes ⊢
  cases validated with
  | accepted =>
    simp only [refines.find] at deletes ⊢
    rw [Option.bind_eq_bind, Option.bind_eq_some_iff] at deletes
    obtain ⟨entry, found, deletes⟩ := deletes
    rw [found]
    cases entry with
    | none =>
        obtain rfl := Option.some.inj deletes
        exact ⟨memory, rfl, refines⟩
    | some handle =>
        obtain rfl := Option.some.inj deletes
        have member := refines.entries.linked.mem_of_find found
        obtain ⟨after, deleted, afterRefines⟩ := UtMemory.delete_refines refines.entries member
        obtain ⟨middle, middleEq, freed⟩ := Option.bind_eq_some_iff.mp deleted
        have stepped := refines.entries.stepOver member map.iterTemp
        refine ⟨{ memory with
          dirty := true
          iterTemp :=
            if map.iterTemp = some handle.address then
              (map.entries.next handle).map UtHandle.address
            else map.iterTemp
          entries := after }, ?_, { refines with
            entries := afterRefines, dirty := rfl, iterTemp := rfl }⟩
        simp only [Option.map_some, Option.bind_eq_bind, Option.bind_some, refines.iterTemp,
          stepped, middleEq, freed, refines.keyType]
  | expecting | mismatched =>
    obtain rfl := Option.some.inj deletes
    exact ⟨memory, rfl, refines⟩

theorem has (refines : MapRefines memory map) (handlers : ValueHandlers) (key : Zval) :
    memory.has handlers key = mapHasWith handlers map.toPhpMap key := by
  rw [MapMemory.has, mapHasWith, refines.keyType, refines.find]
  cases map.entries.find handlers.hash handlers.compare key with
  | none => rfl
  | some entry => cases entry <;> rfl

theorem current (refines : MapRefines memory map) : memory.current = map.current := by
  rw [MapMemory.current, IteratedMap.current, UtHash.read, IteratedMap.cursor, refines.iterCurr]
  cases map.iterCurr with
  | none => rfl
  | some address =>
      rw [Option.map_map]
      exact refines.entries.read _ _ (fun _ _ => rfl) address

theorem key_eq (refines : MapRefines memory map) : memory.key = map.key := by
  rw [MapMemory.key, IteratedMap.key, UtHash.read, IteratedMap.cursor, refines.iterCurr]
  cases map.iterCurr with
  | none => rfl
  | some address =>
      rw [Option.map_map]
      exact refines.entries.read _ _ (fun _ _ => rfl) address

theorem next (refines : MapRefines memory map) {advanced : IteratedMap}
    (moves : map.next = some advanced) :
    ∃ other, memory.next = some other ∧ MapRefines other advanced := by
  rw [IteratedMap.next, UtHash.advance, Option.map_map, Option.map_eq_some_iff] at moves
  obtain ⟨temp, after, rfl⟩ := moves
  refine ⟨{ memory with iterCurr := map.iterTemp, iterTemp := temp }, ?_,
    { refines with iterCurr := rfl, iterTemp := rfl }⟩
  have following := (refines.entries.nextOf map.iterTemp).trans after
  simp only [MapMemory.next, refines.iterTemp, following, Option.bind_eq_bind, Option.bind_some]

theorem rewind (refines : MapRefines memory map) :
    ∃ other, memory.rewind = some other ∧ MapRefines other map.rewind := by
  refine ⟨{ memory with
      iterCurr := map.entries.rewind.curr, iterTemp := map.entries.rewind.temp },
    ?_, { refines with iterCurr := rfl, iterTemp := rfl }⟩
  simp only [MapMemory.rewind, refines.entries.nextOf_head, refines.entries.head_eq,
    Option.bind_eq_bind, Option.bind_some, UtHash.rewind]

theorem populateKeys (refines : MapRefines memory map) : memory.populateKeys = some map.keys :=
  refines.entries.collect _ _ fun _ _ => rfl

theorem populateValues (refines : MapRefines memory map) :
    memory.populateValues = some map.values :=
  refines.entries.collect _ _ fun _ _ => rfl

theorem count (refines : MapRefines memory map) : memory.count = some map.count :=
  refines.entries.count

theorem step (refines : MapRefines memory map) (room : map.entries.Room)
    {call : ValueHandlers × MapCall} {after : IteratedMap} (taken : mapCall map call = some after) :
    ∃ other, mapMemoryCall memory call = some other ∧ MapRefines other after := by
  obtain ⟨handlers, call⟩ := call
  cases call with
  | set key value | offsetSet key value =>
      obtain ⟨changed, sets, rfl⟩ := Option.map_eq_some_iff.mp taken
      obtain ⟨other, otherSets, related⟩ := refines.set room sets
      exact ⟨other, by rw [mapMemoryCall, otherSets]; rfl, related⟩
  | remove key | offsetUnset key =>
      obtain ⟨left, deletes, rfl⟩ := Option.map_eq_some_iff.mp taken
      obtain ⟨other, otherDeletes, related⟩ := refines.del deletes
      exact ⟨other, by rw [mapMemoryCall, otherDeletes]; rfl, related⟩
  | get key | offsetGet key =>
      obtain ⟨answer, answers, rfl⟩ := Option.map_eq_some_iff.mp taken
      exact ⟨memory, by rw [mapMemoryCall, refines.get, answers]; rfl, refines⟩
  | has key | offsetExists key =>
      obtain ⟨answer, answers, rfl⟩ := Option.map_eq_some_iff.mp taken
      exact ⟨memory, by rw [mapMemoryCall, refines.has, answers]; rfl, refines⟩
  | current =>
      obtain ⟨value, read, rfl⟩ := Option.map_eq_some_iff.mp taken
      exact ⟨memory, by rw [mapMemoryCall, refines.current, read]; rfl, refines⟩
  | key =>
      obtain ⟨value, read, rfl⟩ := Option.map_eq_some_iff.mp taken
      exact ⟨memory, by rw [mapMemoryCall, refines.key_eq, read]; rfl, refines⟩
  | next => exact refines.next taken
  | rewind =>
      obtain rfl := Option.some.inj taken
      exact refines.rewind
  | valid =>
      obtain rfl := Option.some.inj taken
      exact ⟨memory, rfl, refines⟩

end MapRefines

/-- A map in memory: its table is in order, and what it is asked is what the map would say. -/
structure MapInMemory (memory : MapMemory) (map : IteratedMap) : Prop where
  fsck : memory.entries.fsck = some ()
  keys : memory.populateKeys = some map.keys
  values : memory.populateValues = some map.values
  count : memory.count = some map.count
  get : ∀ handlers key, memory.get handlers key = mapGetWith handlers map.toPhpMap key
  has : ∀ handlers key, memory.has handlers key = mapHasWith handlers map.toPhpMap key
  current : memory.current = map.current
  key : memory.key = map.key

structure MapProceeds (map : IteratedMap) (call : ValueHandlers × MapCall) : Prop where
  keeps : MapKeepsCurrent map call
  room : map.entries.Room
  answered : MapAnswered map call

theorem MapRefines.of_run {keyType valueType : CassType} (uninitialized : Nat → UtHh)
    {calls : List (ValueHandlers × MapCall)} {map : IteratedMap}
    (run : Run mapCall MapProceeds { keyType, valueType } calls map) :
    ∃ memory, calls.foldlM mapMemoryCall { keyType, valueType, entries := { uninitialized } } =
        some memory ∧ MapRefines memory map :=
  @Run.refines _ _ mapCall _ MapMemory mapMemoryCall MapRefines
    (fun _ _ _ _ refines proceeds taken => refines.step proceeds.room taken) _ _ _ run _
    (.start keyType valueType uninitialized)

theorem MapRefines.exists_run {keyType valueType : CassType} (uninitialized : Nat → UtHh)
    {calls : List (ValueHandlers × MapCall)}
    (follows : Follows mapCall MapProceeds { keyType, valueType } calls) :
    ∃ map memory, calls.foldlM mapCall { keyType, valueType } = some map ∧
      calls.foldlM mapMemoryCall { keyType, valueType, entries := { uninitialized } } =
        some memory ∧
      MapRefines memory map := by
  have defined (map : IteratedMap) (call : ValueHandlers × MapCall) (iterates : MapIterates map)
      (proceeds : MapProceeds map call) : (mapCall map call).isSome :=
    mapCall_isSome iterates proceeds.answered
  have keeps (map : IteratedMap) (call : ValueHandlers × MapCall) (next : IteratedMap)
      (iterates : MapIterates map) (proceeds : MapProceeds map call)
      (taken : mapCall map call = some next) : MapIterates next :=
    iterates.step proceeds.keeps taken
  obtain ⟨map, run⟩ := Run.exists_of_allowed defined keeps follows (.start keyType valueType)
  obtain ⟨memory, runs, refines⟩ := MapRefines.of_run uninitialized run
  exact ⟨map, memory, run.foldlM_eq, runs, refines⟩

/-- Where no call removes the current element, a set and a map run through, and the pointers of
`uthash.h` do what the lists of their elements do. -/
theorem sets_and_maps_run_in_memory {elementType keyType valueType : CassType}
    (uninitialized : Nat → UtHh) {setCalls : List (ValueHandlers × SetCall)}
    {mapCalls : List (ValueHandlers × MapCall)}
    (setFollows : Follows setCall SetProceeds { valueType := elementType } setCalls)
    (mapFollows : Follows mapCall MapProceeds { keyType, valueType } mapCalls) :
    (∃ set memory, setCalls.foldlM setCall { valueType := elementType } = some set ∧
        setCalls.foldlM setMemoryCall
          { valueType := elementType, entries := { uninitialized } } = some memory ∧
        SetInMemory memory set) ∧
      ∃ map memory, mapCalls.foldlM mapCall { keyType, valueType } = some map ∧
        mapCalls.foldlM mapMemoryCall
          { keyType, valueType, entries := { uninitialized } } = some memory ∧
        MapInMemory memory map := by
  constructor
  · obtain ⟨set, memory, ran, runs, refines⟩ := SetRefines.exists_run uninitialized setFollows
    exact ⟨set, memory, ran, runs, refines.entries.fsck, refines.populate, refines.count,
      refines.has, refines.current⟩
  · obtain ⟨map, memory, ran, runs, refines⟩ := MapRefines.exists_run uninitialized mapFollows
    exact ⟨map, memory, ran, runs, refines.entries.fsck, refines.populateKeys,
      refines.populateValues, refines.count, refines.get, refines.has, refines.current,
      refines.key_eq⟩

private def mapLoop : List (ValueHandlers × MapCall) :=
  [.set (.scalar (.long 1)) (.scalar (.long 7)), .set (.scalar (.long 2)) (.scalar (.long 7)),
    .rewind, .remove (.scalar (.long 2)), .key].map (Prod.mk (installedHandlers zendInlineHash))

private theorem mapLoop_follows :
    Follows mapCall MapProceeds { keyType := .scalar .int, valueType := .scalar .int } mapLoop := by
  have run : ∃ last, Run mapCall MapProceeds
      { keyType := .scalar .int, valueType := .scalar .int } mapLoop last := by
    refine ⟨_, .cons ⟨trivial, ⟨by decide, by decide⟩, ?_⟩ rfl
      (.cons ⟨trivial, ⟨by decide, by decide⟩, ?_⟩ rfl
        (.cons ⟨trivial, ⟨by decide, by decide⟩, ?_⟩ rfl
          (.cons ⟨?_, ⟨by decide, by decide⟩, ?_⟩ rfl
            (.cons ⟨trivial, ⟨by decide, by decide⟩, ?_⟩ rfl (.nil _)))))⟩
    · rintro _ ⟨⟩
      exact ⟨rfl, by decide⟩
    · rintro _ ⟨⟩
      exact ⟨rfl, by decide⟩
    · rintro _ ⟨⟩
    · intro entry _ found
      obtain rfl := Option.some.inj (Option.some.inj found)
      decide
    · rintro _ ⟨⟩
      exact ⟨rfl, by decide⟩
    · rintro _ ⟨⟩
  obtain ⟨last, run⟩ := run
  exact run.follows

/-- Over two elements: the one that comes next is removed. -/
theorem loops_run_in_memory :
    (∃ set memory, setLoop.foldlM setCall { valueType := .scalar .int } = some set ∧
        setLoop.foldlM setMemoryCall
          { valueType := .scalar .int, entries := { uninitialized := leftover } } = some memory ∧
        SetInMemory memory set) ∧
      ∃ map memory, mapLoop.foldlM mapCall
          { keyType := .scalar .int, valueType := .scalar .int } = some map ∧
        mapLoop.foldlM mapMemoryCall
          { keyType := .scalar .int, valueType := .scalar .int,
            entries := { uninitialized := leftover } } = some memory ∧
        MapInMemory memory map :=
  sets_and_maps_run_in_memory leftover setLoop_follows mapLoop_follows

end PhpDriver
