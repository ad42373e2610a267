import PhpDriver.Data.UthashWalk
import PhpDriver.Set.Iterator

namespace PhpDriver

open Data

/-! The `Set` objects with their entries in memory, as `Set.c` has them: every entry is
allocated, linked and freed, and the iterator keeps two pointers to entries. `none` is
undefined behaviour, that of a dangling pointer included. -/

structure SetMemory where
  valueType : CassType
  entries : UtMemory Zval Unit
  dirty : Bool := true
  iterCurr : Option Nat := none
  iterTemp : Option Nat := none
  iterIndex : BitVec 32 := 0

namespace SetMemory

section

variable (handlers : ValueHandlers) (set : SetMemory) (object : Zval)

def add : Option (SetMemory × Answer) :=
  if object.isNull then
    some (set,
      { result := false,
        thrown := some (.invalid "Invalid value: null is not supported inside sets") })
  else
    match validateObject object set.valueType with
    | .accepted => do
        let entry ← set.entries.find handlers.hash handlers.compare object
        match entry with
        | none =>
            let entries ← (set.entries.alloc object ()).addKeyptr handlers.hash set.entries.fresh
            some ({ set with dirty := true, entries }, { result := true })
        | some _ => some (set, { result := true })
    | refused => some (set, refused.refusal)

def del : Option (SetMemory × Answer) :=
  match validateObject object set.valueType with
  | .accepted => do
      let entry ← set.entries.find handlers.hash handlers.compare object
      match entry with
      | some entry => do
          let iterTemp ← set.entries.stepOver entry set.iterTemp
          let entries ← set.entries.delete entry
          let entries ← entries.free entry
          some ({ set with dirty := true, iterTemp, entries }, { result := true })
      | none => some (set, { result := false })
  | refused => some (set, refused.refusal)

def has : Option Answer :=
  match validateObject object set.valueType with
  | .accepted => do
      let entry ← set.entries.find handlers.hash handlers.compare object
      some { result := entry.isSome }
  | refused => some refused.refusal

end

section

variable (set : SetMemory)

def populate : Option (List Zval) :=
  UtMemory.iter (fun _ => set.entries)
    (fun array curr => (set.entries.nodes curr).map fun node => array ++ [node.key]) []

def count : Option (BitVec 32) :=
  set.entries.count

def current : Option Zval :=
  match set.iterCurr with
  | none => some .null
  | some entry => (set.entries.nodes entry).map (·.key)

def next : Option SetMemory := do
  let iterTemp ← set.entries.nextOf set.iterTemp
  some { set with iterCurr := set.iterTemp, iterTemp, iterIndex := set.iterIndex + 1 }

def rewind : Option SetMemory := do
  let iterTemp ← set.entries.nextOf set.entries.head
  some { set with iterCurr := set.entries.head, iterTemp, iterIndex := 0 }

def free : Option (UtMemory Zval Unit) :=
  set.entries.freeAll

end

end SetMemory

def setMemoryCall (set : SetMemory) : ValueHandlers × SetCall → Option SetMemory
  | (handlers, .add object) => (set.add handlers object).map Prod.fst
  | (handlers, .remove object) => (set.del handlers object).map Prod.fst
  | (handlers, .has object) => (set.has handlers object).map fun _ => set
  | (_, .current) => set.current.map fun _ => set
  | (_, .key) => some set
  | (_, .next) => set.next
  | (_, .valid) => some set
  | (_, .rewind) => set.rewind

structure SetRefines (memory : SetMemory) (set : IteratedSet) : Prop where
  valueType : memory.valueType = set.valueType
  entries : memory.entries.Refines set.entries
  dirty : memory.dirty = set.dirty
  iterCurr : memory.iterCurr = set.iterCurr
  iterTemp : memory.iterTemp = set.iterTemp
  iterIndex : memory.iterIndex = set.iterIndex

namespace SetRefines

variable {memory : SetMemory} {set : IteratedSet} {handlers : ValueHandlers} {object : Zval}

theorem start (valueType : CassType) (uninitialized : Nat → UtHh) :
    SetRefines { valueType, entries := { uninitialized } } { valueType } where
  valueType := rfl
  entries := .start uninitialized
  dirty := rfl
  iterCurr := rfl
  iterTemp := rfl
  iterIndex := rfl

theorem find (refines : SetRefines memory set) (handlers : ValueHandlers) (object : Zval) :
    memory.entries.find handlers.hash handlers.compare object =
      (set.entries.find handlers.hash handlers.compare object).map (·.map UtHandle.address) :=
  refines.entries.find

theorem add (refines : SetRefines memory set) {added : PhpSet × Answer}
    (room : set.entries.Room) (adds : setAddWith handlers set.toPhpSet object = some added) :
    ∃ other, memory.add handlers object = some (other, added.2) ∧
      SetRefines other { set with toPhpSet := added.1 } := by
  rw [setAddWith] at adds
  rw [SetMemory.add, refines.valueType]
  split at adds
  · rename_i null
    obtain rfl := Option.some.inj adds
    exact ⟨memory, if_pos null, refines⟩
  · rename_i nonnull
    rw [if_neg nonnull]
    generalize validateObject object set.valueType = validated at adds ⊢
    cases validated with
    | accepted =>
      simp only [refines.find] at adds ⊢
      rw [Option.bind_eq_bind, Option.bind_eq_some_iff] at adds
      obtain ⟨entry, found, adds⟩ := adds
      rw [found]
      cases entry with
      | none =>
          obtain ⟨entries, grown, adds⟩ := Option.bind_eq_some_iff.mp adds
          obtain rfl := Option.some.inj adds
          obtain ⟨after, stored, afterRefines⟩ :=
            UtMemory.addKeyptr_refines refines.entries grown room
          refine ⟨{ memory with dirty := true, entries := after }, ?_, ?_⟩
          · simp only [Option.map_some, Option.map_none, Option.bind_eq_bind, Option.bind_some,
              stored, refines.valueType]
          · exact { refines with entries := afterRefines, dirty := rfl }
      | some handle =>
          obtain rfl := Option.some.inj adds
          exact ⟨memory, rfl, refines⟩
    | expecting | mismatched =>
      obtain rfl := Option.some.inj adds
      exact ⟨memory, rfl, refines⟩

theorem del (refines : SetRefines memory set) {left : PhpSet × Answer}
    (deletes : setDelWith handlers set.toPhpSet object = some left) :
    ∃ other, memory.del handlers object = some (other, left.2) ∧
      SetRefines other { set with toPhpSet := left.1 } := by
  rw [setDelWith] at deletes
  rw [SetMemory.del, refines.valueType]
  generalize validateObject object set.valueType = validated at deletes ⊢
  cases validated with
  | accepted =>
    simp only [refines.find] at deletes ⊢
    rw [Option.bind_eq_bind, Option.bind_eq_some_iff] at deletes
    obtain ⟨entry, found, deletes⟩ := deletes
    rw [found]
    cases entry with
    | none =>
        obtain rfl := Option.some.inj deletes
        exact ⟨memory, rfl, refines⟩
    | some handle =>
        obtain rfl := Option.some.inj deletes
        have member := refines.entries.linked.mem_of_find found
        obtain ⟨after, deleted, afterRefines⟩ := UtMemory.delete_refines refines.entries member
        obtain ⟨middle, middleEq, freed⟩ := Option.bind_eq_some_iff.mp deleted
        have stepped := refines.entries.stepOver member set.iterTemp
        refine ⟨{ memory with
          dirty := true
          iterTemp :=
            if set.iterTemp = some handle.address then
              (set.entries.next handle).map UtHandle.address
            else set.iterTemp
          entries := after }, ?_, { refines with
            entries := afterRefines, dirty := rfl, iterTemp := rfl }⟩
        simp only [Option.map_some, Option.bind_eq_bind, Option.bind_some, refines.iterTemp,
          stepped, middleEq, freed, refines.valueType]
  | expecting | mismatched =>
    obtain rfl := Option.some.inj deletes
    exact ⟨memory, rfl, refines⟩

theorem has (refines : SetRefines memory set) (handlers : ValueHandlers) (object : Zval) :
    memory.has handlers object = setHasWith handlers set.toPhpSet object := by
  rw [SetMemory.has, setHasWith, refines.valueType, refines.find]
  cases set.entries.find handlers.hash handlers.compare object with
  | none => rfl
  | some entry => cases entry <;> rfl

theorem current (refines : SetRefines memory set) : memory.current = set.current := by
  rw [SetMemory.current, IteratedSet.current, UtHash.read, IteratedSet.cursor, refines.iterCurr]
  cases set.iterCurr with
  | none => rfl
  | some address =>
      rw [Option.map_map]
      exact refines.entries.read _ _ (fun _ _ => rfl) address

theorem next (refines : SetRefines memory set) {advanced : IteratedSet}
    (moves : set.next = some advanced) :
    ∃ other, memory.next = some other ∧ SetRefines other advanced := by
  rw [IteratedSet.next, UtHash.advance, Option.map_map, Option.map_eq_some_iff] at moves
  obtain ⟨temp, after, rfl⟩ := moves
  refine ⟨{ memory with
      iterCurr := set.iterTemp, iterTemp := temp, iterIndex := set.iterIndex + 1 }, ?_,
    { refines with iterCurr := rfl, iterTemp := rfl, iterIndex := rfl }⟩
  have following := (refines.entries.nextOf set.iterTemp).trans after
  simp only [SetMemory.next, refines.iterTemp, following, Option.bind_eq_bind, Option.bind_some,
    refines.iterIndex]

theorem rewind (refines : SetRefines memory set) :
    ∃ other, memory.rewind = some other ∧ SetRefines other set.rewind := by
  refine ⟨{ memory with
      iterCurr := set.entries.rewind.curr, iterTemp := set.entries.rewind.temp, iterIndex := 0 },
    ?_, { refines with iterCurr := rfl, iterTemp := rfl, iterIndex := rfl }⟩
  simp only [SetMemory.rewind, refines.entries.nextOf_head, refines.entries.head_eq,
    Option.bind_eq_bind, Option.bind_some, UtHash.rewind]

theorem populate (refines : SetRefines memory set) : memory.populate = some set.values :=
  refines.entries.collect _ _ fun _ _ => rfl

theorem count (refines : SetRefines memory set) : memory.count = some set.count :=
  refines.entries.count

theorem step (refines : SetRefines memory set) (room : set.entries.Room)
    {call : ValueHandlers × SetCall} {after : IteratedSet} (taken : setCall set call = some after) :
    ∃ other, setMemoryCall memory call = some other ∧ SetRefines other after := by
  obtain ⟨handlers, call⟩ := call
  cases call with
  | add object =>
      obtain ⟨added, adds, rfl⟩ := Option.map_eq_some_iff.mp taken
      obtain ⟨other, otherAdds, related⟩ := refines.add room adds
      exact ⟨other, by rw [setMemoryCall, otherAdds]; rfl, related⟩
  | remove object =>
      obtain ⟨left, deletes, rfl⟩ := Option.map_eq_some_iff.mp taken
      obtain ⟨other, otherDeletes, related⟩ := refines.del deletes
      exact ⟨other, by rw [setMemoryCall, otherDeletes]; rfl, related⟩
  | has object =>
      obtain ⟨answer, answers, rfl⟩ := Option.map_eq_some_iff.mp taken
      exact ⟨memory, by rw [setMemoryCall, refines.has, answers]; rfl, refines⟩
  | current =>
      obtain ⟨value, read, rfl⟩ := Option.map_eq_some_iff.mp taken
      exact ⟨memory, by rw [setMemoryCall, refines.current, read]; rfl, refines⟩
  | next => exact refines.next taken
  | rewind =>
      obtain rfl := Option.some.inj taken
      exact refines.rewind
  | key | valid =>
      obtain rfl := Option.some.inj taken
      exact ⟨memory, rfl, refines⟩

end SetRefines

/-- A call is no removal of the current element, there is room for one more, and the handlers
answer. -/
structure SetProceeds (set : IteratedSet) (call : ValueHandlers × SetCall) : Prop where
  keeps : SetKeepsCurrent set call
  room : set.entries.Room
  answered : SetAnswered set call

/-- A set in memory: its table is in order, and what it is asked is what the set would say. -/
structure SetInMemory (memory : SetMemory) (set : IteratedSet) : Prop where
  fsck : memory.entries.fsck = some ()
  values : memory.populate = some set.values
  count : memory.count = some set.count
  has : ∀ handlers object, memory.has handlers object = setHasWith handlers set.toPhpSet object
  current : memory.current = set.current

theorem SetRefines.of_run {valueType : CassType} (uninitialized : Nat → UtHh)
    {calls : List (ValueHandlers × SetCall)} {set : IteratedSet}
    (run : Run setCall SetProceeds { valueType } calls set) :
    ∃ memory, calls.foldlM setMemoryCall { valueType, entries := { uninitialized } } =
        some memory ∧ SetRefines memory set :=
  @Run.refines _ _ setCall _ SetMemory setMemoryCall SetRefines
    (fun _ _ _ _ refines proceeds taken => refines.step proceeds.room taken) _ _ _ run _
    (.start valueType uninitialized)

theorem SetRefines.exists_run {valueType : CassType} (uninitialized : Nat → UtHh)
    {calls : List (ValueHandlers × SetCall)}
    (follows : Follows setCall SetProceeds { valueType } calls) :
    ∃ set memory, calls.foldlM setCall { valueType } = some set ∧
      calls.foldlM setMemoryCall { valueType, entries := { uninitialized } } = some memory ∧
      SetRefines memory set := by
  have defined (set : IteratedSet) (call : ValueHandlers × SetCall) (iterates : SetIterates set)
      (proceeds : SetProceeds set call) : (setCall set call).isSome :=
    setCall_isSome iterates proceeds.answered
  have keeps (set : IteratedSet) (call : ValueHandlers × SetCall) (next : IteratedSet)
      (iterates : SetIterates set) (proceeds : SetProceeds set call)
      (taken : setCall set call = some next) : SetIterates next :=
    iterates.step proceeds.keeps taken
  obtain ⟨set, run⟩ := Run.exists_of_allowed defined keeps follows (.start valueType)
  obtain ⟨memory, runs, refines⟩ := SetRefines.of_run uninitialized run
  exact ⟨set, memory, run.foldlM_eq, runs, refines⟩

/-- Nothing is allocated: no entry, and no table. -/
structure GivenBack {Key Value : Type} (memory : UtMemory Key Value) : Prop where
  head : memory.head = none
  nodes : ∀ address, memory.nodes address = none
  tables : ∀ address, memory.tables address = none

def leftover : Nat → UtHh :=
  fun _ => ⟨9, some 9, some 9, some 9, some 9, 9⟩

def setLoop : List (ValueHandlers × SetCall) :=
  [.add (.scalar (.long 1)), .add (.scalar (.long 2)), .rewind, .remove (.scalar (.long 2)),
    .current].map (Prod.mk (installedHandlers zendInlineHash))

theorem setLoop_follows :
    Follows setCall SetProceeds { valueType := .scalar .int } setLoop := by
  have run : ∃ last, Run setCall SetProceeds { valueType := .scalar .int } setLoop last := by
    refine ⟨_, .cons ⟨trivial, ⟨by decide, by decide⟩, ?_⟩ rfl
      (.cons ⟨trivial, ⟨by decide, by decide⟩, ?_⟩ rfl
        (.cons ⟨trivial, ⟨by decide, by decide⟩, ?_⟩ rfl
          (.cons ⟨?_, ⟨by decide, by decide⟩, ?_⟩ rfl
            (.cons ⟨trivial, ⟨by decide, by decide⟩, ?_⟩ rfl (.nil _)))))⟩
    · rintro _ ⟨⟩
      exact ⟨rfl, by decide⟩
    · rintro _ ⟨⟩
      exact ⟨rfl, by decide⟩
    · rintro _ ⟨⟩
    · intro entry _ found
      obtain rfl := Option.some.inj (Option.some.inj found)
      decide
    · rintro _ ⟨⟩
      exact ⟨rfl, by decide⟩
    · rintro _ ⟨⟩
  obtain ⟨last, run⟩ := run
  exact run.follows

end PhpDriver
