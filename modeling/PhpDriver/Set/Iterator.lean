import PhpDriver.Data.Run
import PhpDriver.Data.UtCursor
import PhpDriver.Set.Object

namespace PhpDriver

open Data

/-! The iterator of a set. `iterCurr` is the element a `foreach` is at, `iterTemp` the one
it goes to next. -/

structure IteratedSet extends PhpSet where
  iterCurr : Option Nat := none
  iterIndex : BitVec 32 := 0

namespace IteratedSet

def cursor (set : IteratedSet) : UtCursor where
  curr := set.iterCurr
  temp := set.iterTemp

def withCursor (set : IteratedSet) (cursor : UtCursor) : IteratedSet :=
  { set with iterCurr := cursor.curr, iterTemp := cursor.temp }

/-- `Set::current`, null without a current element. -/
def current (set : IteratedSet) : Option Zval :=
  (set.entries.read set.cursor).map fun entry => (entry.map fun entry => entry.key).getD .null

def key (set : IteratedSet) : BitVec 32 :=
  set.iterIndex

def next (set : IteratedSet) : Option IteratedSet :=
  (set.entries.advance set.cursor).map fun cursor =>
    { set.withCursor cursor with iterIndex := set.iterIndex + 1 }

def valid (set : IteratedSet) : Bool :=
  set.iterCurr.isSome

def rewind (set : IteratedSet) : IteratedSet :=
  { set.withCursor set.entries.rewind with iterIndex := 0 }

end IteratedSet

inductive SetCall where
  | add (object : Zval)
  | remove (object : Zval)
  | has (object : Zval)
  | current
  | key
  | next
  | valid
  | rewind

def SetCall.iterates : SetCall → Bool
  | .add _ | .remove _ | .has _ => false
  | _ => true

def setCall (set : IteratedSet) : ValueHandlers × SetCall → Option IteratedSet
  | (handlers, .add object) =>
      (setAddWith handlers set.toPhpSet object).map fun added => { set with toPhpSet := added.1 }
  | (handlers, .remove object) =>
      (setDelWith handlers set.toPhpSet object).map fun left => { set with toPhpSet := left.1 }
  | (handlers, .has object) => (setHasWith handlers set.toPhpSet object).map fun _ => set
  | (_, .current) => set.current.map fun _ => set
  | (_, .key) => some set
  | (_, .next) => set.next
  | (_, .valid) => some set
  | (_, .rewind) => some set.rewind

/-- What is removed is not the current element. -/
def SetKeepsCurrent (set : IteratedSet) : ValueHandlers × SetCall → Prop
  | (handlers, .remove object) => ∀ entry,
      validateObject object set.valueType = .accepted →
      set.entries.find handlers.hash handlers.compare object = some (some entry) →
      set.iterCurr ≠ some entry.address
  | _ => True

/-- Both fields are null or point to an entry of the set. -/
structure SetIterates (set : IteratedSet) : Prop where
  linked : set.entries.Linked
  walks : set.entries.Walks set.cursor

theorem setAddWith_cases {handlers : ValueHandlers} {set next : PhpSet} {object : Zval}
    {answer : Answer} (added : setAddWith handlers set object = some (next, answer)) :
    next = set ∨ ∃ entries, set.entries.add handlers.hash object () = some entries ∧
      next = { set with dirty := true, entries } := by
  rw [setAddWith] at added
  split at added
  · exact Or.inl (Prod.mk.inj (Option.some.inj added)).1.symm
  · split at added
    · rw [Option.bind_eq_bind, Option.bind_eq_some_iff] at added
      obtain ⟨entry, _, added⟩ := added
      split at added
      · rw [Option.bind_eq_bind, Option.bind_eq_some_iff] at added
        obtain ⟨entries, grown, added⟩ := added
        exact Or.inr ⟨entries, grown, (Prod.mk.inj (Option.some.inj added)).1.symm⟩
      · exact Or.inl (Prod.mk.inj (Option.some.inj added)).1.symm
    · exact Or.inl (Prod.mk.inj (Option.some.inj added)).1.symm

theorem setDelWith_cases {handlers : ValueHandlers} {set next : PhpSet} {object : Zval}
    {answer : Answer} (left : setDelWith handlers set object = some (next, answer)) :
    next = set ∨ ∃ entry, validateObject object set.valueType = .accepted ∧
      set.entries.find handlers.hash handlers.compare object = some (some entry) ∧
      next = { set with
        dirty := true
        iterTemp :=
          if set.iterTemp = some entry.address then
            (set.entries.next entry).map UtHandle.address
          else set.iterTemp
        entries := set.entries.delete entry } := by
  rw [setDelWith] at left
  split at left
  · rename_i accepted
    rw [Option.bind_eq_bind, Option.bind_eq_some_iff] at left
    obtain ⟨entry, found, left⟩ := left
    split at left
    · exact Or.inr ⟨_, accepted, found, (Prod.mk.inj (Option.some.inj left)).1.symm⟩
    · exact Or.inl (Prod.mk.inj (Option.some.inj left)).1.symm
  · exact Or.inl (Prod.mk.inj (Option.some.inj left)).1.symm

theorem setCall_remove {set next : IteratedSet} {handlers : ValueHandlers} {object : Zval}
    {entry : UtHandle Zval} (accepted : validateObject object set.valueType = .accepted)
    (found : set.entries.find handlers.hash handlers.compare object = some (some entry))
    (taken : setCall set (handlers, .remove object) = some next) :
    next.entries = set.entries.delete entry ∧
      next.cursor = set.entries.stepOver entry set.cursor := by
  simp only [setCall, setDelWith, accepted, found, Option.bind_eq_bind, Option.bind_some,
    Option.map_some, Option.some.injEq] at taken
  obtain rfl := taken
  refine ⟨rfl, ?_⟩
  rw [UtHash.stepOver, IteratedSet.cursor, IteratedSet.cursor]
  split <;> simp_all

namespace SetIterates

variable {set next : IteratedSet}

theorem start (valueType : CassType) : SetIterates { valueType } :=
  ⟨.empty, .start⟩

theorem add (iterates : SetIterates set) {handlers : ValueHandlers} {object : Zval}
    (taken : setCall set (handlers, .add object) = some next) : SetIterates next := by
  obtain ⟨⟨added, answer⟩, addedTo, rfl⟩ := Option.map_eq_some_iff.mp taken
  obtain rfl | ⟨entries, grown, rfl⟩ := setAddWith_cases addedTo
  · exact iterates
  · exact ⟨iterates.linked.add grown, iterates.walks.add grown⟩

theorem removed_iff (iterates : SetIterates set) {handlers : ValueHandlers} {object : Zval}
    {entry : UtHandle Zval} (accepted : validateObject object set.valueType = .accepted)
    (found : set.entries.find handlers.hash handlers.compare object = some (some entry))
    (taken : setCall set (handlers, .remove object) = some next) :
    next.entries.Linked ∧
      (next.entries.Walks next.cursor ↔ set.iterCurr ≠ some entry.address) := by
  obtain ⟨entries, cursor⟩ := setCall_remove accepted found taken
  rw [entries, cursor]
  exact ⟨iterates.linked.delete (iterates.linked.mem_of_find found),
    iterates.walks.delete_iff iterates.linked entry⟩

theorem remove (iterates : SetIterates set) {handlers : ValueHandlers} {object : Zval}
    (keeps : SetKeepsCurrent set (handlers, .remove object))
    (taken : setCall set (handlers, .remove object) = some next) : SetIterates next := by
  obtain ⟨⟨left, answer⟩, leftBy, same⟩ := Option.map_eq_some_iff.mp taken
  obtain unchanged | ⟨entry, accepted, found, _⟩ := setDelWith_cases leftBy
  · rw [← same]
    simp only [unchanged]
    exact iterates
  · obtain ⟨linked, walks⟩ := iterates.removed_iff accepted found taken
    exact ⟨linked, walks.mpr (keeps entry accepted found)⟩

theorem step (iterates : SetIterates set) {call : ValueHandlers × SetCall}
    (keeps : SetKeepsCurrent set call) (taken : setCall set call = some next) :
    SetIterates next := by
  obtain ⟨handlers, call⟩ := call
  cases call with
  | add object => exact iterates.add taken
  | remove object => exact iterates.remove keeps taken
  | has object | current =>
      obtain ⟨_, _, rfl⟩ := Option.map_eq_some_iff.mp taken
      exact iterates
  | key | valid =>
      obtain rfl := Option.some.inj taken
      exact iterates
  | next =>
      obtain ⟨cursor, advanced, rfl⟩ := Option.map_eq_some_iff.mp taken
      exact ⟨iterates.linked, iterates.walks.of_advance advanced⟩
  | rewind =>
      obtain rfl := Option.some.inj taken
      exact ⟨iterates.linked, UtHash.rewind_walks⟩

/-- Exactly the removal of the current element leaves a pointer to what is gone. -/
theorem walks_iff (iterates : SetIterates set) {call : ValueHandlers × SetCall}
    (taken : setCall set call = some next) :
    next.entries.Walks next.cursor ↔ SetKeepsCurrent set call := by
  refine ⟨fun walks => ?_, fun keeps => (iterates.step keeps taken).walks⟩
  obtain ⟨handlers, call⟩ := call
  cases call with
  | remove object =>
      intro entry accepted found
      exact (iterates.removed_iff accepted found taken).2.mp walks
  | _ => trivial

theorem defined (iterates : SetIterates set) (handlers : ValueHandlers) {call : SetCall}
    (iteration : call.iterates) : (setCall set (handlers, call)).isSome := by
  cases call with
  | add _ | remove _ | has _ => cases iteration
  | key | valid | rewind => rfl
  | current => simp [setCall, IteratedSet.current, iterates.walks.read]
  | next =>
      obtain ⟨cursor, advanced, _⟩ := iterates.walks.advance
      simp [setCall, IteratedSet.next, advanced]

end SetIterates

/-- The pointers of a set are null or point to its entries, no call of its iterator
follows one to an entry that is gone, and only what removes the current element changes that. -/
structure SetIteratesSafely (set : IteratedSet) : Prop where
  walks : set.entries.Walks set.cursor
  defined : ∀ handlers call, call.iterates → (setCall set (handlers, call)).isSome
  walks_iff : ∀ call next, setCall set call = some next →
    (next.entries.Walks next.cursor ↔ SetKeepsCurrent set call)

theorem set_iterates_safely {valueType : CassType} {calls : List (ValueHandlers × SetCall)}
    {set : IteratedSet} (run : Run setCall SetKeepsCurrent { valueType } calls set) :
    SetIteratesSafely set := by
  have iterates : SetIterates set :=
    run.invariant (fun _ _ _ iterates keeps taken => iterates.step keeps taken)
      (.start valueType)
  exact ⟨iterates.walks, fun handlers _ => iterates.defined handlers,
    fun _ _ => iterates.walks_iff⟩

/-! Calls that search are defined when the handlers answer. -/

def SetCall.searched : SetCall → Option Zval
  | .add object | .remove object | .has object => some object
  | .current | .key | .next | .valid | .rewind => none

/-- What the call asks the handlers of its object and of the elements is answered. -/
def SetAnswered (set : IteratedSet) (call : ValueHandlers × SetCall) : Prop :=
  ∀ object, call.2.searched = some object →
    set.entries.Answers call.1.hash call.1.compare object

theorem setCall_isSome {set : IteratedSet} (iterates : SetIterates set)
    {call : ValueHandlers × SetCall} (answered : SetAnswered set call) :
    (setCall set call).isSome := by
  obtain ⟨handlers, call⟩ := call
  cases call with
  | add object =>
      have answers := answered object rfl
      obtain ⟨entry, found⟩ :=
        Option.isSome_iff_exists.mp (iterates.linked.find_isSome answers)
      obtain ⟨grown, added⟩ := Option.isSome_iff_exists.mp (answers.add_isSome ())
      simp only [setCall, setAddWith, Option.isSome_map]
      split
      · rfl
      · split
        · cases entry <;> simp [found, added]
        · rfl
  | remove object =>
      obtain ⟨entry, found⟩ :=
        Option.isSome_iff_exists.mp (iterates.linked.find_isSome (answered object rfl))
      simp only [setCall, setDelWith, Option.isSome_map]
      split
      · cases entry <;> simp [found]
      · rfl
  | has object =>
      obtain ⟨entry, found⟩ :=
        Option.isSome_iff_exists.mp (iterates.linked.find_isSome (answered object rfl))
      simp only [setCall, setHasWith, Option.isSome_map]
      split
      · simp [found]
      · rfl
  | current | key | next | valid | rewind => exact iterates.defined handlers rfl

end PhpDriver
