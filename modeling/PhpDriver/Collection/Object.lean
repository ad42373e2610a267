import PhpDriver.Util.Validate

namespace PhpDriver

open Data

/-! The `Collection` objects of `Collection.c`: a hash table by index, the next index of
which is never one that was used before. -/

structure PhpCollection where
  valueType : CassType
  values : OrderedMap Nat Zval := []
  nextFreeElement : Nat := 0
  dirty : Bool := false

def collectionAdd (collection : PhpCollection) (object : Zval) : PhpCollection :=
  { collection with
    values := collection.values ++ [(collection.nextFreeElement, object)]
    nextFreeElement := collection.nextFreeElement + 1
    dirty := true }

def collectionDel (collection : PhpCollection) (index : Nat) : PhpCollection × Bool :=
  if index ∈ collection.values.keys then
    ({ collection with values := collection.values.erase index, dirty := true }, true)
  else (collection, false)

namespace PhpCollection

/-- What `Collection::add` says to the first of its arguments that it refuses. -/
def refusedArgument (valueType : CassType) : List Zval → Option Answer
  | [] => none
  | object :: objects =>
      if object.isNull then
        some { result := false,
               thrown := some (.invalid
                 "Invalid value: null is not supported inside collections") }
      else
        match validateObject object valueType with
        | .accepted => refusedArgument valueType objects
        | refused => some refused.refusal

/-- `Collection::add`, which checks all its arguments before it adds the first. -/
def add (collection : PhpCollection) (objects : List Zval) :
    PhpCollection × Except Answer Nat :=
  match refusedArgument collection.valueType objects with
  | some answer => (collection, .error answer)
  | none =>
      let after := objects.foldl collectionAdd collection
      (after, .ok after.values.length)

def remove (collection : PhpCollection) (index : BitVec 64) : PhpCollection × Bool :=
  collectionDel collection index.toNat

/-- The loop of `Type\Collection::create`, which adds while it checks and lets null pass. -/
def create (collection : PhpCollection) : List Zval → PhpCollection × Option Thrown
  | [] => (collection, none)
  | object :: objects =>
      match validateObject object collection.valueType with
      | .accepted => create (collectionAdd collection object) objects
      | refused => (collection, refused.refusal.thrown)

def toZval (collection : PhpCollection) : Zval :=
  .collection collection.valueType collection.values.values

end PhpCollection

inductive CollectionAction where
  | add (objects : List Zval)
  | remove (index : BitVec 64)

def CollectionAction.objects : CollectionAction → List Zval
  | .add objects => objects
  | .remove _ => []

def collectionStep (collection : PhpCollection) : CollectionAction → PhpCollection
  | .add objects => (collection.add objects).1
  | .remove index => (collection.remove index).1

/-- The next index of a collection was not used before. -/
def PhpCollection.Indexed (collection : PhpCollection) : Prop :=
  ∀ index ∈ collection.values.keys, index < collection.nextFreeElement

namespace PhpCollection.Indexed

variable {collection : PhpCollection}

theorem empty (valueType : CassType) : Indexed { valueType } := by
  simp [Indexed, OrderedMap.keys]

theorem collectionAdd (indexed : collection.Indexed) (object : Zval) :
    (collectionAdd collection object).Indexed := by
  intro index member
  simp only [PhpDriver.collectionAdd, OrderedMap.keys, List.map_append, List.mem_append,
    List.map_cons, List.map_nil, List.mem_singleton] at member ⊢
  cases member with
  | inl old => exact Nat.lt_succ_of_lt (indexed index old)
  | inr new => rw [new]; exact Nat.lt_succ_self _

theorem collectionAdds (indexed : collection.Indexed) (objects : List Zval) :
    (objects.foldl PhpDriver.collectionAdd collection).Indexed := by
  induction objects generalizing collection with
  | nil => exact indexed
  | cons object objects ih => exact ih (indexed.collectionAdd object)

theorem collectionDel (indexed : collection.Indexed) (index : Nat) :
    (collectionDel collection index).1.Indexed := by
  rw [PhpDriver.collectionDel]
  split
  · intro other member
    rw [OrderedMap.keys_erase] at member
    exact indexed other (List.mem_filter.mp member).1
  · exact indexed

end PhpCollection.Indexed

namespace PhpCollection

theorem refusedArgument_eq_none {valueType : CassType} {objects : List Zval}
    (passed : refusedArgument valueType objects = none) :
    ∀ object ∈ objects, validateObject object valueType = .accepted := by
  induction objects with
  | nil => simp
  | cons object objects ih =>
      rw [refusedArgument] at passed
      split at passed
      · cases passed
      · split at passed
        · rename_i accepted
          exact List.forall_mem_cons.mpr ⟨accepted, ih passed⟩
        · cases passed

/-- All the values satisfy a property of the values that are accepted. -/
structure Holds (property : Zval → Prop) (collection : PhpCollection) : Prop where
  accepted : ∀ value ∈ collection.values.values,
    validateObject value collection.valueType = .accepted
  property : ∀ value ∈ collection.values.values, property value

namespace Holds

variable {property : Zval → Prop} {collection : PhpCollection}

theorem empty (valueType : CassType) : Holds property { valueType } where
  accepted := by simp [OrderedMap.values]
  property := by simp [OrderedMap.values]

theorem collectionAdd (holds : Holds property collection) {object : Zval}
    (accepted : validateObject object collection.valueType = .accepted)
    (satisfied : property object) : Holds property (collectionAdd collection object) where
  accepted := by
    intro value member
    simp only [PhpDriver.collectionAdd, OrderedMap.values, List.map_append, List.map_cons,
      List.map_nil, List.mem_append, List.mem_singleton] at member
    rcases member with old | rfl
    · exact holds.accepted value old
    · exact accepted
  property := by
    intro value member
    simp only [PhpDriver.collectionAdd, OrderedMap.values, List.map_append, List.map_cons,
      List.map_nil, List.mem_append, List.mem_singleton] at member
    rcases member with old | rfl
    · exact holds.property value old
    · exact satisfied

theorem collectionAdds (holds : Holds property collection) {objects : List Zval}
    (accepted : ∀ object ∈ objects, validateObject object collection.valueType = .accepted)
    (satisfied : ∀ object ∈ objects, property object) :
    Holds property (objects.foldl PhpDriver.collectionAdd collection) := by
  induction objects generalizing collection with
  | nil => exact holds
  | cons object objects ih =>
      rw [List.forall_mem_cons] at accepted satisfied
      exact ih (holds.collectionAdd accepted.1 satisfied.1) accepted.2 satisfied.2

theorem collectionDel (holds : Holds property collection) (index : Nat) :
    Holds property (collectionDel collection index).1 := by
  rw [PhpDriver.collectionDel]
  split
  · have kept (value : Zval) (member : value ∈ (collection.values.erase index).values) :
        value ∈ collection.values.values :=
      (List.filter_sublist.map Prod.snd).subset member
    exact ⟨fun value member => holds.accepted value (kept value member),
      fun value member => holds.property value (kept value member)⟩
  · exact holds

theorem create (holds : Holds property collection) {objects : List Zval}
    (satisfied : ∀ object ∈ objects, property object) :
    Holds property (collection.create objects).1 := by
  induction objects generalizing collection with
  | nil => exact holds
  | cons object objects ih =>
      rw [List.forall_mem_cons] at satisfied
      rw [PhpCollection.create]
      split
      · rename_i accepted
        exact ih (holds.collectionAdd accepted satisfied.1) satisfied.2
      · exact holds

theorem step (holds : Holds property collection) {action : CollectionAction}
    (satisfied : ∀ object ∈ action.objects, property object) :
    Holds property (collectionStep collection action) := by
  cases action with
  | add objects =>
      rw [collectionStep, add]
      split
      · exact holds
      · rename_i passed
        exact holds.collectionAdds (refusedArgument_eq_none passed) satisfied
  | remove index => exact holds.collectionDel index.toNat

theorem run (holds : Holds property collection) {actions : List CollectionAction}
    (satisfied : ∀ action ∈ actions, ∀ object ∈ action.objects, property object) :
    Holds property (actions.foldl collectionStep collection) :=
  List.foldlRecOn actions collectionStep holds fun _ holds action member =>
    holds.step (satisfied action member)

end Holds

end PhpCollection

end PhpDriver
