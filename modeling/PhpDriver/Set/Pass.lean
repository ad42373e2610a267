import PhpDriver.Data.UtPass
import PhpDriver.Set.Iterator

namespace PhpDriver

open Data

/-! Passes over a set: a rewind, and then any calls but another rewind. -/

structure SetPass where
  set : IteratedSet
  pass : UtPass

def startSetPass (set : IteratedSet) : SetPass where
  set := set.rewind
  pass := set.entries.startPass

def setPassStep (state : SetPass) (call : ValueHandlers × SetCall) : Option SetPass :=
  (setCall state.set call).map fun set =>
    let pass := state.pass.changed set.entries
    { set
      pass :=
        match call.2 with
        | .next => pass.moved set.cursor
        | .add _ => pass.added
        | _ => pass }

/-- Everything but a rewind and the removal of the current element. -/
structure SetInPass (state : SetPass) (call : ValueHandlers × SetCall) : Prop where
  stays : ∀ handlers, call ≠ (handlers, .rewind)
  keeps : SetKeepsCurrent state.set call

theorem setCall_linked {set next : IteratedSet} (linked : set.entries.Linked)
    {call : ValueHandlers × SetCall} (taken : setCall set call = some next) :
    next.entries.Linked := by
  obtain ⟨handlers, call⟩ := call
  cases call with
  | add object =>
      obtain ⟨⟨added, answer⟩, addedTo, rfl⟩ := Option.map_eq_some_iff.mp taken
      obtain rfl | ⟨entries, grown, rfl⟩ := setAddWith_cases addedTo
      · exact linked
      · exact linked.add grown
  | remove object =>
      obtain ⟨⟨left, answer⟩, leftBy, rfl⟩ := Option.map_eq_some_iff.mp taken
      obtain rfl | ⟨entry, _, found, rfl⟩ := setDelWith_cases leftBy
      · exact linked
      · exact linked.delete (linked.mem_of_find found)
  | has object | current =>
      obtain ⟨_, _, rfl⟩ := Option.map_eq_some_iff.mp taken
      exact linked
  | key | valid =>
      obtain rfl := Option.some.inj taken
      exact linked
  | next =>
      obtain ⟨cursor, _, rfl⟩ := Option.map_eq_some_iff.mp taken
      exact linked
  | rewind =>
      obtain rfl := Option.some.inj taken
      exact linked

def SetTracks (size : Nat) (state : SetPass) : Prop :=
  state.pass.Tracks size state.set.entries state.set.cursor

namespace SetTracks

variable {size : Nat} {state next : SetPass} {handlers : ValueHandlers}

theorem unchanged (tracks : SetTracks size state) :
    (state.pass.changed state.set.entries).Tracks size state.set.entries state.set.cursor := by
  rw [tracks.changed_of_subset (List.Subset.refl _)]
  exact tracks

theorem add (tracks : SetTracks size state) {object : Zval}
    (taken : setPassStep state (handlers, .add object) = some next) : SetTracks size next := by
  obtain ⟨set, called, rfl⟩ := Option.map_eq_some_iff.mp taken
  obtain ⟨⟨added, answer⟩, addedTo, rfl⟩ := Option.map_eq_some_iff.mp called
  obtain rfl | ⟨entries, grown, rfl⟩ := setAddWith_cases addedTo
  · exact tracks.unchanged.more
  · exact UtPass.Tracks.add tracks grown

theorem remove (tracks : SetTracks size state) {object : Zval}
    (keeps : SetKeepsCurrent state.set (handlers, .remove object))
    (taken : setPassStep state (handlers, .remove object) = some next) : SetTracks size next := by
  obtain ⟨set, called, rfl⟩ := Option.map_eq_some_iff.mp taken
  obtain ⟨⟨left, answer⟩, leftBy, same⟩ := Option.map_eq_some_iff.mp called
  obtain unchanged | ⟨entry, accepted, found, _⟩ := setDelWith_cases leftBy
  · simp only [unchanged] at same
    obtain rfl : state.set = set := same
    exact tracks.unchanged
  · obtain ⟨entries, cursor⟩ := setCall_remove accepted found called
    have deleted := UtPass.Tracks.delete tracks (tracks.linked.mem_of_find found)
      (keeps entry accepted found)
    rwa [← entries, ← cursor] at deleted

theorem step (tracks : SetTracks size state) {call : ValueHandlers × SetCall}
    (allowed : SetInPass state call) (taken : setPassStep state call = some next) :
    SetTracks size next := by
  obtain ⟨handlers, call⟩ := call
  cases call with
  | add object => exact tracks.add taken
  | remove object => exact tracks.remove allowed.keeps taken
  | has object | current =>
      obtain ⟨set, called, rfl⟩ := Option.map_eq_some_iff.mp taken
      obtain ⟨_, _, rfl⟩ := Option.map_eq_some_iff.mp called
      exact tracks.unchanged
  | key | valid =>
      obtain rfl := Option.some.inj taken
      exact tracks.unchanged
  | next =>
      obtain ⟨set, called, rfl⟩ := Option.map_eq_some_iff.mp taken
      obtain ⟨cursor, advanced, rfl⟩ := Option.map_eq_some_iff.mp called
      exact UtPass.Tracks.advance tracks advanced
  | rewind => exact absurd rfl (allowed.stays handlers)

end SetTracks

/-- A pass over a set is complete as `valid` tells it, its calls are defined, and its current
element is the one visited last. -/
structure SetPassComplete (size : Nat) (state : SetPass) : Prop where
  complete : state.pass.Complete size state.set.entries state.set.valid
  next : ∀ handlers, (setPassStep state (handlers, .next)).isSome
  reads : ∀ handlers, (setPassStep state (handlers, .current)).isSome
  current : state.set.valid → ∃ element ∈ state.set.entries.elements,
    state.pass.visited.getLast? = some element.address ∧ state.set.current = some element.key

theorem SetTracks.passComplete {size : Nat} {state : SetPass} (tracks : SetTracks size state) :
    SetPassComplete size state where
  complete := tracks.complete
  next := by
    intro handlers
    obtain ⟨cursor, advanced, _⟩ := tracks.walks.advance
    simp [setPassStep, setCall, IteratedSet.next, advanced]
  reads := by
    intro handlers
    obtain ⟨found, read⟩ := Option.isSome_iff_exists.mp tracks.walks.read
    simp [setPassStep, setCall, IteratedSet.current, read]
  current := by
    intro running
    obtain ⟨element, member, last, read⟩ := tracks.current running
    refine ⟨element, member, last, ?_⟩
    rw [IteratedSet.current, read]
    rfl

theorem set_pass_complete {valueType : CassType} {before calls : List (ValueHandlers × SetCall)}
    {set : IteratedSet} {state : SetPass}
    (reached : Run setCall (fun _ _ => True) { valueType } before set)
    (run : Run setPassStep SetInPass (startSetPass set) calls state) :
    SetPassComplete set.entries.elements.length state := by
  have linked : set.entries.Linked :=
    reached.invariant (fun _ _ _ linked _ taken => setCall_linked linked taken) .empty
  have size : set.entries.addresses.length = set.entries.elements.length := by
    simp [UtHash.addresses, UtHash.handles]
  have tracks : SetTracks set.entries.elements.length state := by
    apply run.invariant (fun _ _ _ tracks allowed taken => SetTracks.step tracks allowed taken)
    rw [← size]
    exact UtPass.Tracks.start linked
  exact tracks.passComplete

end PhpDriver
