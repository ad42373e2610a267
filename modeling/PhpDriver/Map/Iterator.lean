import PhpDriver.Data.Run
import PhpDriver.Data.UtCursor
import PhpDriver.Map.Object
import PhpDriver.Set.Iterator

namespace PhpDriver

open Data

/-! The iterator of a map, and the access by offsets. -/

structure IteratedMap extends PhpMap where
  iterCurr : Option Nat := none

namespace IteratedMap

def cursor (map : IteratedMap) : UtCursor where
  curr := map.iterCurr
  temp := map.iterTemp

def withCursor (map : IteratedMap) (cursor : UtCursor) : IteratedMap :=
  { map with iterCurr := cursor.curr, iterTemp := cursor.temp }

def current (map : IteratedMap) : Option Zval :=
  (map.entries.read map.cursor).map fun entry => (entry.map UtElement.value).getD .null

def key (map : IteratedMap) : Option Zval :=
  (map.entries.read map.cursor).map fun entry => (entry.map fun entry => entry.key).getD .null

def next (map : IteratedMap) : Option IteratedMap :=
  (map.entries.advance map.cursor).map map.withCursor

def valid (map : IteratedMap) : Bool :=
  map.iterCurr.isSome

def rewind (map : IteratedMap) : IteratedMap :=
  map.withCursor map.entries.rewind

end IteratedMap

inductive MapCall where
  | set (key value : Zval)
  | get (key : Zval)
  | remove (key : Zval)
  | has (key : Zval)
  | offsetSet (key value : Zval)
  | offsetGet (key : Zval)
  | offsetUnset (key : Zval)
  | offsetExists (key : Zval)
  | current
  | key
  | next
  | valid
  | rewind

def MapCall.iterates : MapCall → Bool
  | .current | .key | .next | .valid | .rewind => true
  | _ => false

def mapCall (map : IteratedMap) : ValueHandlers × MapCall → Option IteratedMap
  | (handlers, .set key value) | (handlers, .offsetSet key value) =>
      (mapSetWith handlers map.toPhpMap key value).map fun changed =>
        { map with toPhpMap := changed.1 }
  | (handlers, .get key) | (handlers, .offsetGet key) =>
      (mapGetWith handlers map.toPhpMap key).map fun _ => map
  | (handlers, .remove key) | (handlers, .offsetUnset key) =>
      (mapDelWith handlers map.toPhpMap key).map fun left => { map with toPhpMap := left.1 }
  | (handlers, .has key) | (handlers, .offsetExists key) =>
      (mapHasWith handlers map.toPhpMap key).map fun _ => map
  | (_, .current) => map.current.map fun _ => map
  | (_, .key) => map.key.map fun _ => map
  | (_, .next) => map.next
  | (_, .valid) => some map
  | (_, .rewind) => some map.rewind

/-- The entry that is removed is not the current one. -/
def MapKeepsCurrent (map : IteratedMap) : ValueHandlers × MapCall → Prop
  | (handlers, .remove key) | (handlers, .offsetUnset key) => ∀ entry,
      validateObject key map.keyType = .accepted →
      map.entries.find handlers.hash handlers.compare key = some (some entry) →
      map.iterCurr ≠ some entry.address
  | _ => True

/-- Both fields are null or point to an entry of the map. -/
structure MapIterates (map : IteratedMap) : Prop where
  linked : map.entries.Linked
  walks : map.entries.Walks map.cursor

theorem mapSetWith_cases {handlers : ValueHandlers} {map next : PhpMap} {key value : Zval}
    {answer : Answer} (changed : mapSetWith handlers map key value = some (next, answer)) :
    next = map ∨
      (∃ entries, map.entries.add handlers.hash key value = some entries ∧
        next = { map with dirty := true, entries }) ∨
      ∃ entry, next = { map with dirty := true, entries := map.entries.setValue entry value } := by
  rw [mapSetWith] at changed
  split at changed
  · exact Or.inl (Prod.mk.inj (Option.some.inj changed)).1.symm
  · split at changed
    · exact Or.inl (Prod.mk.inj (Option.some.inj changed)).1.symm
    · split at changed
      · split at changed
        · rw [Option.bind_eq_bind, Option.bind_eq_some_iff] at changed
          obtain ⟨entry, _, changed⟩ := changed
          split at changed
          · rw [Option.bind_eq_bind, Option.bind_eq_some_iff] at changed
            obtain ⟨entries, grown, changed⟩ := changed
            exact Or.inr (Or.inl ⟨entries, grown, (Prod.mk.inj (Option.some.inj changed)).1.symm⟩)
          · exact Or.inr (Or.inr ⟨_, (Prod.mk.inj (Option.some.inj changed)).1.symm⟩)
        · exact Or.inl (Prod.mk.inj (Option.some.inj changed)).1.symm
      · exact Or.inl (Prod.mk.inj (Option.some.inj changed)).1.symm

theorem mapDelWith_cases {handlers : ValueHandlers} {map next : PhpMap} {key : Zval}
    {answer : Answer} (left : mapDelWith handlers map key = some (next, answer)) :
    next = map ∨ ∃ entry, validateObject key map.keyType = .accepted ∧
      map.entries.find handlers.hash handlers.compare key = some (some entry) := by
  rw [mapDelWith] at left
  split at left
  · rename_i accepted
    rw [Option.bind_eq_bind, Option.bind_eq_some_iff] at left
    obtain ⟨entry, found, left⟩ := left
    split at left
    · exact Or.inr ⟨_, accepted, found⟩
    · exact Or.inl (Prod.mk.inj (Option.some.inj left)).1.symm
  · exact Or.inl (Prod.mk.inj (Option.some.inj left)).1.symm

theorem mapCall_remove {map next : IteratedMap} {handlers : ValueHandlers} {key : Zval}
    {entry : UtHandle Zval} (accepted : validateObject key map.keyType = .accepted)
    (found : map.entries.find handlers.hash handlers.compare key = some (some entry))
    (taken : mapCall map (handlers, .remove key) = some next) :
    next.entries = map.entries.delete entry ∧
      next.cursor = map.entries.stepOver entry map.cursor := by
  simp only [mapCall, mapDelWith, accepted, found, Option.bind_eq_bind, Option.bind_some,
    Option.map_some, Option.some.injEq] at taken
  obtain rfl := taken
  refine ⟨rfl, ?_⟩
  rw [UtHash.stepOver, IteratedMap.cursor, IteratedMap.cursor]
  split <;> simp_all

namespace MapIterates

variable {map next : IteratedMap} {handlers : ValueHandlers}

theorem start (keyType valueType : CassType) : MapIterates { keyType, valueType } :=
  ⟨.empty, .start⟩

theorem set (iterates : MapIterates map) {key value : Zval}
    (taken : mapCall map (handlers, .set key value) = some next) : MapIterates next := by
  obtain ⟨⟨changed, answer⟩, changedTo, rfl⟩ := Option.map_eq_some_iff.mp taken
  obtain rfl | ⟨entries, grown, rfl⟩ | ⟨entry, rfl⟩ := mapSetWith_cases changedTo
  · exact iterates
  · exact ⟨iterates.linked.add grown, iterates.walks.add grown⟩
  · exact ⟨iterates.linked.setValue entry value, iterates.walks.setValue entry value⟩

theorem removed_iff (iterates : MapIterates map) {key : Zval} {entry : UtHandle Zval}
    (accepted : validateObject key map.keyType = .accepted)
    (found : map.entries.find handlers.hash handlers.compare key = some (some entry))
    (taken : mapCall map (handlers, .remove key) = some next) :
    next.entries.Linked ∧
      (next.entries.Walks next.cursor ↔ map.iterCurr ≠ some entry.address) := by
  obtain ⟨entries, cursor⟩ := mapCall_remove accepted found taken
  rw [entries, cursor]
  exact ⟨iterates.linked.delete (iterates.linked.mem_of_find found),
    iterates.walks.delete_iff iterates.linked entry⟩

theorem remove (iterates : MapIterates map) {key : Zval}
    (keeps : MapKeepsCurrent map (handlers, .remove key))
    (taken : mapCall map (handlers, .remove key) = some next) : MapIterates next := by
  obtain ⟨⟨left, answer⟩, leftBy, same⟩ := Option.map_eq_some_iff.mp taken
  obtain unchanged | ⟨entry, accepted, found⟩ := mapDelWith_cases leftBy
  · rw [← same]
    simp only [unchanged]
    exact iterates
  · obtain ⟨linked, walks⟩ := iterates.removed_iff accepted found taken
    exact ⟨linked, walks.mpr (keeps entry accepted found)⟩

theorem step (iterates : MapIterates map) {call : ValueHandlers × MapCall}
    (keeps : MapKeepsCurrent map call) (taken : mapCall map call = some next) :
    MapIterates next := by
  obtain ⟨handlers, call⟩ := call
  cases call with
  | set key value | offsetSet key value => exact iterates.set taken
  | remove key | offsetUnset key => exact iterates.remove keeps taken
  | get key | offsetGet key | has key | offsetExists key | current | key =>
      obtain ⟨_, _, rfl⟩ := Option.map_eq_some_iff.mp taken
      exact iterates
  | valid =>
      obtain rfl := Option.some.inj taken
      exact iterates
  | next =>
      obtain ⟨cursor, advanced, rfl⟩ := Option.map_eq_some_iff.mp taken
      exact ⟨iterates.linked, iterates.walks.of_advance advanced⟩
  | rewind =>
      obtain rfl := Option.some.inj taken
      exact ⟨iterates.linked, UtHash.rewind_walks⟩

/-- Exactly the removal of the current element leaves a pointer to what is gone. -/
theorem walks_iff (iterates : MapIterates map) {call : ValueHandlers × MapCall}
    (taken : mapCall map call = some next) :
    next.entries.Walks next.cursor ↔ MapKeepsCurrent map call := by
  refine ⟨fun walks => ?_, fun keeps => (iterates.step keeps taken).walks⟩
  obtain ⟨handlers, call⟩ := call
  cases call with
  | remove key | offsetUnset key =>
      intro entry accepted found
      exact (iterates.removed_iff accepted found taken).2.mp walks
  | _ => trivial

theorem defined (iterates : MapIterates map) (handlers : ValueHandlers) {call : MapCall}
    (iteration : call.iterates) : (mapCall map (handlers, call)).isSome := by
  cases call with
  | valid | rewind => rfl
  | current => simp [mapCall, IteratedMap.current, iterates.walks.read]
  | key => simp [mapCall, IteratedMap.key, iterates.walks.read]
  | next =>
      obtain ⟨cursor, advanced, _⟩ := iterates.walks.advance
      simp [mapCall, IteratedMap.next, advanced]
  | _ => cases iteration

end MapIterates

/-- The pointers of a map are null or point to its entries, no call of its iterator
follows one to an entry that is gone, and only what removes the current element changes that. -/
structure MapIteratesSafely (map : IteratedMap) : Prop where
  walks : map.entries.Walks map.cursor
  defined : ∀ handlers call, call.iterates → (mapCall map (handlers, call)).isSome
  walks_iff : ∀ call next, mapCall map call = some next →
    (next.entries.Walks next.cursor ↔ MapKeepsCurrent map call)

theorem map_iterates_safely {keyType valueType : CassType} {calls : List (ValueHandlers × MapCall)}
    {map : IteratedMap} (run : Run mapCall MapKeepsCurrent { keyType, valueType } calls map) :
    MapIteratesSafely map := by
  have iterates : MapIterates map :=
    run.invariant (fun _ _ _ iterates keeps taken => iterates.step keeps taken)
      (.start keyType valueType)
  exact ⟨iterates.walks, fun handlers _ => iterates.defined handlers,
    fun _ _ => iterates.walks_iff⟩

/-! Calls that search are defined when the handlers answer. -/

def MapCall.searched : MapCall → Option Zval
  | .set sought _ | .offsetSet sought _ | .get sought | .offsetGet sought | .remove sought
  | .offsetUnset sought | .has sought | .offsetExists sought => some sought
  | .current | .key | .next | .valid | .rewind => none

def MapAnswered (map : IteratedMap) (call : ValueHandlers × MapCall) : Prop :=
  ∀ key, call.2.searched = some key → map.entries.Answers call.1.hash call.1.compare key

theorem mapCall_isSome {map : IteratedMap} (iterates : MapIterates map)
    {call : ValueHandlers × MapCall} (answered : MapAnswered map call) :
    (mapCall map call).isSome := by
  obtain ⟨handlers, call⟩ := call
  cases call with
  | set key value | offsetSet key value =>
      have answers := answered key rfl
      obtain ⟨entry, found⟩ :=
        Option.isSome_iff_exists.mp (iterates.linked.find_isSome answers)
      obtain ⟨grown, added⟩ := Option.isSome_iff_exists.mp (answers.add_isSome value)
      simp only [mapCall, mapSetWith, Option.isSome_map]
      split
      · rfl
      · split
        · rfl
        · split
          · split
            · cases entry <;> simp [found, added]
            · rfl
          · rfl
  | get key | offsetGet key =>
      obtain ⟨entry, found⟩ :=
        Option.isSome_iff_exists.mp (iterates.linked.find_isSome (answered key rfl))
      simp only [mapCall, mapGetWith, Option.isSome_map]
      split
      · cases entry <;> simp [found]
      · rfl
  | remove key | offsetUnset key =>
      obtain ⟨entry, found⟩ :=
        Option.isSome_iff_exists.mp (iterates.linked.find_isSome (answered key rfl))
      simp only [mapCall, mapDelWith, Option.isSome_map]
      split
      · cases entry <;> simp [found]
      · rfl
  | has key | offsetExists key =>
      obtain ⟨entry, found⟩ :=
        Option.isSome_iff_exists.mp (iterates.linked.find_isSome (answered key rfl))
      simp only [mapCall, mapHasWith, Option.isSome_map]
      split
      · simp [found]
      · rfl
  | current | key | next | valid | rewind => exact iterates.defined handlers rfl

/-- Of sets and maps alike. -/
theorem iterators_are_safe {elementType keyType valueType : CassType}
    {setCalls : List (ValueHandlers × SetCall)} {mapCalls : List (ValueHandlers × MapCall)}
    {set : IteratedSet} {map : IteratedMap}
    (setRun : Run setCall SetKeepsCurrent { valueType := elementType } setCalls set)
    (mapRun : Run mapCall MapKeepsCurrent { keyType, valueType } mapCalls map) :
    SetIteratesSafely set ∧ MapIteratesSafely map :=
  ⟨set_iterates_safely setRun, map_iterates_safely mapRun⟩

/-- In loops over 1 and 2 the element that comes next is removed. -/
theorem loop_removes_next :
    ∃ set map,
      Run setCall SetKeepsCurrent { valueType := .scalar .int }
        ([.add (.scalar (.long 1)), .add (.scalar (.long 2)), .rewind,
          .remove (.scalar (.long 2)), .current, .next].map
            (Prod.mk (installedHandlers zendInlineHash))) set ∧
      Run mapCall MapKeepsCurrent { keyType := .scalar .int, valueType := .scalar .int }
        ([.set (.scalar (.long 1)) (.scalar (.long 7)),
          .set (.scalar (.long 2)) (.scalar (.long 7)), .rewind,
          .remove (.scalar (.long 2)), .current, .next].map
            (Prod.mk (installedHandlers zendInlineHash))) map ∧
      SetIteratesSafely set ∧ MapIteratesSafely map := by
  have setRun : ∃ set, Run setCall SetKeepsCurrent { valueType := .scalar .int }
      ([.add (.scalar (.long 1)), .add (.scalar (.long 2)), .rewind,
        .remove (.scalar (.long 2)), .current, .next].map
          (Prod.mk (installedHandlers zendInlineHash))) set := by
    refine ⟨_, .cons trivial rfl (.cons trivial rfl (.cons trivial rfl
      (.cons ?_ rfl (.cons trivial rfl (.cons trivial rfl (.nil _))))))⟩
    intro entry _ found
    obtain rfl := Option.some.inj (Option.some.inj found)
    decide
  have mapRun : ∃ map,
      Run mapCall MapKeepsCurrent { keyType := .scalar .int, valueType := .scalar .int }
        ([.set (.scalar (.long 1)) (.scalar (.long 7)),
          .set (.scalar (.long 2)) (.scalar (.long 7)), .rewind,
          .remove (.scalar (.long 2)), .current, .next].map
            (Prod.mk (installedHandlers zendInlineHash))) map := by
    refine ⟨_, .cons trivial rfl (.cons trivial rfl (.cons trivial rfl
      (.cons ?_ rfl (.cons trivial rfl (.cons trivial rfl (.nil _))))))⟩
    intro entry _ found
    obtain rfl := Option.some.inj (Option.some.inj found)
    decide
  obtain ⟨set, setRun⟩ := setRun
  obtain ⟨map, mapRun⟩ := mapRun
  exact ⟨set, map, setRun, mapRun, iterators_are_safe setRun mapRun⟩

/-- Removing the element the loop is at leaves the iterator with it. -/
theorem loop_removes_current :
    ∃ set, ([.add (.scalar (.long 1)), .add (.scalar (.long 2)), .rewind,
        .remove (.scalar (.long 1))].map (Prod.mk (installedHandlers zendInlineHash))).foldlM
          setCall { valueType := .scalar .int } = some set ∧
      set.valid = true ∧ set.current = none ∧ ¬ set.entries.Walks set.cursor := by
  refine ⟨_, rfl, rfl, rfl, ?_⟩
  intro walks
  cases walks.read

end PhpDriver
