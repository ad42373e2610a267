import PhpDriver.Map.Iterator
import PhpDriver.Set.Pass

namespace PhpDriver

open Data

/-! Passes over a map: a rewind, and then any calls but another rewind. -/

structure MapPass where
  map : IteratedMap
  pass : UtPass

def startMapPass (map : IteratedMap) : MapPass where
  map := map.rewind
  pass := map.entries.startPass

def mapPassStep (state : MapPass) (call : ValueHandlers × MapCall) : Option MapPass :=
  (mapCall state.map call).map fun map =>
    let pass := state.pass.changed map.entries
    { map
      pass :=
        match call.2 with
        | .next => pass.moved map.cursor
        | .set _ _ | .offsetSet _ _ => pass.added
        | _ => pass }

/-- Everything but a rewind and the removal of the current entry. -/
structure MapInPass (state : MapPass) (call : ValueHandlers × MapCall) : Prop where
  stays : ∀ handlers, call ≠ (handlers, .rewind)
  keeps : MapKeepsCurrent state.map call

theorem mapCall_linked {map next : IteratedMap} (linked : map.entries.Linked)
    {call : ValueHandlers × MapCall} (taken : mapCall map call = some next) :
    next.entries.Linked := by
  obtain ⟨handlers, call⟩ := call
  cases call with
  | set key value | offsetSet key value =>
      obtain ⟨⟨changed, answer⟩, changedTo, rfl⟩ := Option.map_eq_some_iff.mp taken
      obtain rfl | ⟨entries, grown, rfl⟩ | ⟨entry, rfl⟩ := mapSetWith_cases changedTo
      · exact linked
      · exact linked.add grown
      · exact linked.setValue entry value
  | remove key | offsetUnset key =>
      obtain ⟨⟨left, answer⟩, leftBy, same⟩ := Option.map_eq_some_iff.mp taken
      obtain unchanged | ⟨entry, accepted, found⟩ := mapDelWith_cases leftBy
      · simp only [unchanged] at same
        obtain rfl : map = next := same
        exact linked
      · obtain ⟨entries, _⟩ := mapCall_remove accepted found taken
        rw [entries]
        exact linked.delete (linked.mem_of_find found)
  | get key | offsetGet key | has key | offsetExists key | current | key =>
      obtain ⟨_, _, rfl⟩ := Option.map_eq_some_iff.mp taken
      exact linked
  | valid =>
      obtain rfl := Option.some.inj taken
      exact linked
  | next =>
      obtain ⟨cursor, _, rfl⟩ := Option.map_eq_some_iff.mp taken
      exact linked
  | rewind =>
      obtain rfl := Option.some.inj taken
      exact linked

def MapTracks (size : Nat) (state : MapPass) : Prop :=
  state.pass.Tracks size state.map.entries state.map.cursor

namespace MapTracks

variable {size : Nat} {state next : MapPass} {handlers : ValueHandlers}

theorem unchanged (tracks : MapTracks size state) :
    (state.pass.changed state.map.entries).Tracks size state.map.entries state.map.cursor := by
  rw [tracks.changed_of_subset (List.Subset.refl _)]
  exact tracks

theorem set (tracks : MapTracks size state) {key value : Zval}
    (taken : mapPassStep state (handlers, .set key value) = some next) : MapTracks size next := by
  obtain ⟨map, called, rfl⟩ := Option.map_eq_some_iff.mp taken
  obtain ⟨⟨changed, answer⟩, changedTo, rfl⟩ := Option.map_eq_some_iff.mp called
  obtain rfl | ⟨entries, grown, rfl⟩ | ⟨entry, rfl⟩ := mapSetWith_cases changedTo
  · exact tracks.unchanged.more
  · exact UtPass.Tracks.add tracks grown
  · exact (UtPass.Tracks.setValue tracks entry value).more

theorem remove (tracks : MapTracks size state) {key : Zval}
    (keeps : MapKeepsCurrent state.map (handlers, .remove key))
    (taken : mapPassStep state (handlers, .remove key) = some next) : MapTracks size next := by
  obtain ⟨map, called, rfl⟩ := Option.map_eq_some_iff.mp taken
  obtain ⟨⟨left, answer⟩, leftBy, same⟩ := Option.map_eq_some_iff.mp called
  obtain unchanged | ⟨entry, accepted, found⟩ := mapDelWith_cases leftBy
  · simp only [unchanged] at same
    obtain rfl : state.map = map := same
    exact tracks.unchanged
  · obtain ⟨entries, cursor⟩ := mapCall_remove accepted found called
    have deleted := UtPass.Tracks.delete tracks (tracks.linked.mem_of_find found)
      (keeps entry accepted found)
    rwa [← entries, ← cursor] at deleted

theorem step (tracks : MapTracks size state) {call : ValueHandlers × MapCall}
    (allowed : MapInPass state call) (taken : mapPassStep state call = some next) :
    MapTracks size next := by
  obtain ⟨handlers, call⟩ := call
  cases call with
  | set key value | offsetSet key value => exact tracks.set taken
  | remove key | offsetUnset key => exact tracks.remove allowed.keeps taken
  | get key | offsetGet key | has key | offsetExists key | current | key =>
      obtain ⟨map, called, rfl⟩ := Option.map_eq_some_iff.mp taken
      obtain ⟨_, _, rfl⟩ := Option.map_eq_some_iff.mp called
      exact tracks.unchanged
  | valid =>
      obtain rfl := Option.some.inj taken
      exact tracks.unchanged
  | next =>
      obtain ⟨map, called, rfl⟩ := Option.map_eq_some_iff.mp taken
      obtain ⟨cursor, advanced, rfl⟩ := Option.map_eq_some_iff.mp called
      exact UtPass.Tracks.advance tracks advanced
  | rewind => exact absurd rfl (allowed.stays handlers)

end MapTracks

/-- A pass over a map is complete as `valid` tells it, its calls are defined, and its current
entry is the one visited last. -/
structure MapPassComplete (size : Nat) (state : MapPass) : Prop where
  complete : state.pass.Complete size state.map.entries state.map.valid
  next : ∀ handlers, (mapPassStep state (handlers, .next)).isSome
  reads : ∀ handlers, (mapPassStep state (handlers, .current)).isSome ∧
    (mapPassStep state (handlers, .key)).isSome
  current : state.map.valid → ∃ element ∈ state.map.entries.elements,
    state.pass.visited.getLast? = some element.address ∧
      state.map.key = some element.key ∧ state.map.current = some element.value

theorem MapTracks.passComplete {size : Nat} {state : MapPass} (tracks : MapTracks size state) :
    MapPassComplete size state where
  complete := tracks.complete
  next := by
    intro handlers
    obtain ⟨cursor, advanced, _⟩ := tracks.walks.advance
    simp [mapPassStep, mapCall, IteratedMap.next, advanced]
  reads := by
    intro handlers
    obtain ⟨found, read⟩ := Option.isSome_iff_exists.mp tracks.walks.read
    simp [mapPassStep, mapCall, IteratedMap.current, IteratedMap.key, read]
  current := by
    intro running
    obtain ⟨element, member, last, read⟩ := tracks.current running
    refine ⟨element, member, last, ?_, ?_⟩
    · rw [IteratedMap.key, read]
      rfl
    · rw [IteratedMap.current, read]
      rfl

theorem map_pass_complete {keyType valueType : CassType}
    {before calls : List (ValueHandlers × MapCall)} {map : IteratedMap} {state : MapPass}
    (reached : Run mapCall (fun _ _ => True) { keyType, valueType } before map)
    (run : Run mapPassStep MapInPass (startMapPass map) calls state) :
    MapPassComplete map.entries.elements.length state := by
  have linked : map.entries.Linked :=
    reached.invariant (fun _ _ _ linked _ taken => mapCall_linked linked taken) .empty
  have size : map.entries.addresses.length = map.entries.elements.length := by
    simp [UtHash.addresses, UtHash.handles]
  have tracks : MapTracks map.entries.elements.length state := by
    apply run.invariant (fun _ _ _ tracks allowed taken => MapTracks.step tracks allowed taken)
    rw [← size]
    exact UtPass.Tracks.start linked
  exact tracks.passComplete

/-- Whatever has been done to a set or a map before, a pass over it can go on until `valid` is
false, and is complete then. -/
theorem passes_are_complete {elementType keyType valueType : CassType}
    {setBefore setCalls : List (ValueHandlers × SetCall)}
    {mapBefore mapCalls : List (ValueHandlers × MapCall)} {set : IteratedSet} {map : IteratedMap}
    {setPass : SetPass} {mapPass : MapPass}
    (setReached : Run setCall (fun _ _ => True) { valueType := elementType } setBefore set)
    (setRun : Run setPassStep SetInPass (startSetPass set) setCalls setPass)
    (mapReached : Run mapCall (fun _ _ => True) { keyType, valueType } mapBefore map)
    (mapRun : Run mapPassStep MapInPass (startMapPass map) mapCalls mapPass) :
    SetPassComplete set.entries.elements.length setPass ∧
      MapPassComplete map.entries.elements.length mapPass :=
  ⟨set_pass_complete setReached setRun, map_pass_complete mapReached mapRun⟩

/-- Over 1 and 2: 3 is added and 2, which comes next, removed. -/
theorem pass_over_two :
    ∃ (set : IteratedSet) (map : IteratedMap) (setPass : SetPass) (mapPass : MapPass),
      (SetPassComplete set.entries.elements.length setPass ∧
        MapPassComplete map.entries.elements.length mapPass) ∧
      setPass.pass.visited = [0, 2] ∧ mapPass.pass.visited = [0, 2] := by
  have ofSet : ∃ set last, Run setCall (fun _ _ => True) { valueType := .scalar .int }
      ([.add (.scalar (.long 1)), .add (.scalar (.long 2))].map
        (Prod.mk (installedHandlers zendInlineHash))) set ∧
      Run setPassStep SetInPass (startSetPass set)
        ([.current, .add (.scalar (.long 3)), .remove (.scalar (.long 2)), .next].map
          (Prod.mk (installedHandlers zendInlineHash))) last ∧
      last.pass.visited = [0, 2] := by
    refine ⟨_, _, .cons trivial rfl (.cons trivial rfl (.nil _)), .cons ⟨by simp, trivial⟩ rfl
      (.cons ⟨by simp, trivial⟩ rfl (.cons ⟨by simp, ?_⟩ rfl
        (.cons ⟨by simp, trivial⟩ rfl (.nil _)))), rfl⟩
    intro entry _ found
    obtain rfl := Option.some.inj (Option.some.inj found)
    decide
  have ofMap : ∃ map last, Run mapCall (fun _ _ => True)
      { keyType := .scalar .int, valueType := .scalar .int }
      ([.set (.scalar (.long 1)) (.scalar (.long 7)),
        .set (.scalar (.long 2)) (.scalar (.long 7))].map
          (Prod.mk (installedHandlers zendInlineHash))) map ∧
      Run mapPassStep MapInPass (startMapPass map)
        ([.current, .set (.scalar (.long 3)) (.scalar (.long 7)), .remove (.scalar (.long 2)),
          .next].map (Prod.mk (installedHandlers zendInlineHash))) last ∧
      last.pass.visited = [0, 2] := by
    refine ⟨_, _, .cons trivial rfl (.cons trivial rfl (.nil _)), .cons ⟨by simp, trivial⟩ rfl
      (.cons ⟨by simp, trivial⟩ rfl (.cons ⟨by simp, ?_⟩ rfl
        (.cons ⟨by simp, trivial⟩ rfl (.nil _)))), rfl⟩
    intro entry _ found
    obtain rfl := Option.some.inj (Option.some.inj found)
    decide
  obtain ⟨set, setPass, setReached, setRun, setVisited⟩ := ofSet
  obtain ⟨map, mapPass, mapReached, mapRun, mapVisited⟩ := ofMap
  exact ⟨set, map, setPass, mapPass, passes_are_complete setReached setRun mapReached mapRun,
    setVisited, mapVisited⟩

end PhpDriver
