import PhpDriver.Data.Run
import PhpDriver.Util.Handlers

namespace PhpDriver

open Data

/-! Sets, maps, collections, tuples and user type values that hold each other by reference,
with the hashes they cache (`dirty` and `hashv`). Values that are no containers are left open,
with their hash and their validation. What a search with `HASH_FIND_ZVAL` finds is given with
the call, and the hashing it does is a call of its own. -/

variable {Leaf : Type}

inductive Slot (Leaf : Type) where
  | null
  | leaf (value : Leaf)
  | object (handle : Nat)

def Slot.isNull : Slot Leaf → Bool
  | .null => true
  | .leaf _ | .object _ => false

/-- The entries of sets and maps are listed in the order of their tables. -/
inductive Contents (Leaf : Type) where
  | collection (values : OrderedMap Nat (Slot Leaf)) (nextFreeElement : Nat)
  | set (entries : List (Slot Leaf))
  | map (entries : List (Slot Leaf × Slot Leaf))
  | tuple (values : OrderedMap Nat (Slot Leaf))
  | userTypeValue (values : OrderedMap (List UInt8) (Slot Leaf))

def Contents.slots : Contents Leaf → List (Slot Leaf)
  | .collection values _ => values.values
  | .set entries => entries
  | .map entries => entries.flatMap fun entry => [entry.1, entry.2]
  | .tuple values => values.values
  | .userTypeValue values => values.values

def Contents.valueClass : Contents Leaf → ValueClass
  | .collection _ _ => .collection
  | .set _ => .set
  | .map _ => .map
  | .tuple _ => .tuple
  | .userTypeValue _ => .userTypeValue

structure Container (Leaf : Type) where
  type : CassType
  contents : Contents Leaf
  dirty : Bool
  hashv : BitVec 32 := 0

abbrev ContainerHeap (Leaf : Type) := List (Container Leaf)

namespace Container

/-- The `*_new` functions. That of collections leaves the flag as `ecalloc` has it. -/
def new : CassType → Option (Container Leaf)
  | .list valueType =>
      some { type := .list valueType, contents := .collection [] 0, dirty := false }
  | .set valueType => some { type := .set valueType, contents := .set [], dirty := true }
  | .map keyType valueType =>
      some { type := .map keyType valueType, contents := .map [], dirty := true }
  | .tuple types => some { type := .tuple types, contents := .tuple [], dirty := true }
  | .userType types =>
      some { type := .userType types, contents := .userTypeValue [], dirty := true }
  | .scalar _ | .custom _ => none

section

variable (validates : Slot Leaf → CassType → Bool) (self : Container Leaf)

def setAdd (object : Slot Leaf) (same : Slot Leaf → Bool) : Container Leaf :=
  match self.type, self.contents with
  | .set valueType, .set entries =>
      if object.isNull then self
      else if !validates object valueType then self
      else if entries.any same then self
      else { self with dirty := true, contents := .set (entries ++ [object]) }
  | _, _ => self

def setDel (object : Slot Leaf) (same : Slot Leaf → Bool) : Container Leaf :=
  match self.type, self.contents with
  | .set valueType, .set entries =>
      if !validates object valueType then self
      else if entries.any same then
        { self with dirty := true, contents := .set (entries.eraseP same) }
      else self
  | _, _ => self

def mapSet (key value : Slot Leaf) (same : Slot Leaf → Bool) : Container Leaf :=
  match self.type, self.contents with
  | .map keyType valueType, .map entries =>
      if key.isNull || value.isNull then self
      else if !validates key keyType then self
      else if !validates value valueType then self
      else
        let entries :=
          if entries.any fun entry => same entry.1 then
            entries.modify (entries.findIdx fun entry => same entry.1) fun entry =>
              (entry.1, value)
          else entries ++ [(key, value)]
        { self with dirty := true, contents := .map entries }
  | _, _ => self

def mapDel (key : Slot Leaf) (same : Slot Leaf → Bool) : Container Leaf :=
  match self.type, self.contents with
  | .map keyType _, .map entries =>
      if !validates key keyType then self
      else if entries.any fun entry => same entry.1 then
        { self with
          dirty := true
          contents := .map (entries.eraseP fun entry => same entry.1) }
      else self
  | _, _ => self

def collectionAdd (object : Slot Leaf) : Container Leaf :=
  match self.type, self.contents with
  | .list valueType, .collection values next =>
      if !validates object valueType then self
      else { self with
        dirty := true
        contents := .collection (values ++ [(next, object)]) (next + 1) }
  | _, _ => self

def collectionDel (index : Nat) : Container Leaf :=
  match self.contents with
  | .collection values next =>
      if index ∈ values.keys then
        { self with dirty := true, contents := .collection (values.erase index) next }
      else self
  | _ => self

def tupleSet (index : Nat) (object : Slot Leaf) : Container Leaf :=
  match self.type, self.contents with
  | .tuple types, .tuple values =>
      match types[index]? with
      | none => self
      | some type =>
          if !validates object type then self
          else { self with dirty := true, contents := .tuple (values.set index object) }
  | _, _ => self

def userTypeValueSet (name : List UInt8) (object : Slot Leaf) : Container Leaf :=
  match self.type, self.contents with
  | .userType types, .userTypeValue values =>
      match OrderedMap.get types name with
      | none => self
      | some type =>
          if !validates object type then self
          else { self with dirty := true, contents := .userTypeValue (values.set name object) }
  | _, _ => self

end

end Container

inductive Mutation (Leaf : Type) where
  | setAdd (object : Slot Leaf) (same : Slot Leaf → Bool)
  | setDel (object : Slot Leaf) (same : Slot Leaf → Bool)
  | mapSet (key value : Slot Leaf) (same : Slot Leaf → Bool)
  | mapDel (key : Slot Leaf) (same : Slot Leaf → Bool)
  | collectionAdd (object : Slot Leaf)
  | collectionDel (index : Nat)
  | tupleSet (index : Nat) (object : Slot Leaf)
  | userTypeValueSet (name : List UInt8) (object : Slot Leaf)

def Container.mutate (validates : Slot Leaf → CassType → Bool) (self : Container Leaf) :
    Mutation Leaf → Container Leaf
  | .setAdd object same => self.setAdd validates object same
  | .setDel object same => self.setDel validates object same
  | .mapSet key value same => self.mapSet validates key value same
  | .mapDel key same => self.mapDel validates key same
  | .collectionAdd object => self.collectionAdd validates object
  | .collectionDel index => self.collectionDel index
  | .tupleSet index object => self.tupleSet validates index object
  | .userTypeValueSet name object => self.userTypeValueSet validates name object

def validateSlot (validateLeaf : Leaf → CassType → Bool) (heap : ContainerHeap Leaf)
    (slot : Slot Leaf) (type : CassType) : Bool :=
  match slot with
  | .null => true
  | .leaf value => validateLeaf value type
  | .object handle =>
      match heap[handle]? with
      | some inner => typeCompare inner.type type == 0
      | none => false

section

variable (leafHash : Leaf → BitVec 32)

def slotHash (hashObject : ContainerHeap Leaf → Nat → BitVec 32 × ContainerHeap Leaf)
    (heap : ContainerHeap Leaf) : Slot Leaf → BitVec 32 × ContainerHeap Leaf
  | .null => (0, heap)
  | .leaf value => (leafHash value, heap)
  | .object handle => hashObject heap handle

def hashSlots (hashObject : ContainerHeap Leaf → Nat → BitVec 32 × ContainerHeap Leaf) :
    ContainerHeap Leaf → BitVec 32 → List (Slot Leaf) → BitVec 32 × ContainerHeap Leaf
  | heap, hashv, [] => (hashv, heap)
  | heap, hashv, slot :: slots =>
      let (hash, heap) := slotHash leafHash hashObject heap slot
      hashSlots hashObject heap (combineHash hashv hash) slots

/-- The hash functions of the five classes. Containers are nested less deep than the type of
the container that holds them. -/
def containerHashValue : Nat → ContainerHeap Leaf → Nat → BitVec 32 × ContainerHeap Leaf
  | 0, heap, _ => (0, heap)
  | depth + 1, heap, handle =>
      match heap[handle]? with
      | none => (0, heap)
      | some self =>
          if !self.dirty then (self.hashv, heap)
          else
            let (hashv, heap) := hashSlots leafHash (containerHashValue depth) heap 0 self.contents.slots
            (hashv, heap.modify handle fun self => { self with hashv, dirty := false })

def Slot.hash (hashObject : Nat → BitVec 32) : Slot Leaf → BitVec 32
  | .null => 0
  | .leaf value => leafHash value
  | .object handle => hashObject handle

def contentsHash : Nat → ContainerHeap Leaf → Nat → BitVec 32
  | 0, _, _ => 0
  | depth + 1, heap, handle =>
      match heap[handle]? with
      | none => 0
      | some self =>
          (self.contents.slots.map (Slot.hash leafHash (contentsHash depth heap))).foldl
            combineHash 0

end

namespace CassType

mutual

def depth : CassType → Nat
  | .scalar _ | .custom _ => 0
  | .list valueType | .set valueType => depth valueType + 1
  | .map keyType valueType => max (depth keyType) (depth valueType) + 1
  | .tuple types => depths types + 1
  | .userType types => fieldDepths types + 1

def depths : List CassType → Nat
  | [] => 0
  | type :: types => max (depth type) (depths types)

def fieldDepths : List (List UInt8 × CassType) → Nat
  | [] => 0
  | (_, type) :: types => max (depth type) (fieldDepths types)

end

end CassType

inductive ContainerCall (Leaf : Type) where
  | new (type : CassType)
  | mutate (handle : Nat) (mutation : Mutation Leaf)
  | hash (handle : Nat)

/-- A container is hashed through the handler of its class, where one is installed. -/
def containerStep (phpVersionId : Nat) (leafHash : Leaf → BitVec 32)
    (validateLeaf : Leaf → CassType → Bool) (heap : ContainerHeap Leaf) :
    ContainerCall Leaf → Option (ContainerHeap Leaf)
  | .new type => (Container.new type).map fun self => heap ++ [self]
  | .mutate handle mutation =>
      heap[handle]?.map fun self =>
        heap.set handle (self.mutate (validateSlot validateLeaf heap) mutation)
  | .hash handle =>
      heap[handle]?.bind fun self =>
        if self.contents.valueClass.hashCall phpVersionId = .installed then
          some (containerHashValue leafHash self.type.depth heap handle).2
        else none

end PhpDriver
