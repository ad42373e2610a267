import PhpDriver.Data.DoublyLinked
import PhpDriver.Data.Uthash

namespace PhpDriver.Data

/-! The macros of `uthash.h` on the pointers they work with. `none` is what follows a null
or a dangling pointer, a loop without an end, and a key whose hash or comparison is
undefined. An allocation never fails and never returns an address again. -/

/-- A `UT_hash_handle`. It has the address of its element, and the key of its element: the
length of a key is always 0. -/
structure UtHh where
  tbl : Nat
  prev : Option Nat
  next : Option Nat
  hhPrev : Option Nat
  hhNext : Option Nat
  hashv : BitVec 32
deriving DecidableEq

structure UtNode (Key Value : Type) where
  key : Key
  value : Value
  hh : UtHh

structure UtMemoryBucket where
  hhHead : Option Nat := none
  count : BitVec 32 := 0
  expandMult : BitVec 32 := 0
deriving DecidableEq

structure UtMemoryTable where
  buckets : List UtMemoryBucket
  numBuckets : BitVec 32
  log2NumBuckets : BitVec 32
  numItems : BitVec 32 := 0
  tail : Option Nat
  idealChainMaxlen : BitVec 32 := 0
  nonidealItems : BitVec 32 := 0
  ineffExpands : BitVec 32 := 0
  noexpand : BitVec 32 := 0
deriving DecidableEq

def UtMemoryTable.make (tail : Nat) : UtMemoryTable where
  tail := some tail
  numBuckets := BitVec.ofNat 32 (2 ^ utInitialLog2)
  log2NumBuckets := BitVec.ofNat 32 utInitialLog2
  buckets := List.replicate (2 ^ utInitialLog2) {}

/-- A head pointer and the memory behind it. What a new element has in its handle is
whatever was there before. -/
structure UtMemory (Key Value : Type) where
  head : Option Nat := none
  nodes : Nat → Option (UtNode Key Value) := fun _ => none
  tables : Nat → Option UtMemoryTable := fun _ => none
  fresh : Nat := 0
  freshTable : Nat := 0
  uninitialized : Nat → UtHh

namespace UtMemory

section

variable (memory : UtMemory Key Value)

def modify (pointer : Option Nat) (change : UtHh → UtHh) : UtMemory Key Value :=
  { memory with
    nodes := fun address =>
      if pointer = some address then
        (memory.nodes address).map fun node => { node with hh := change node.hh }
      else memory.nodes address }

def write (address : Nat) (change : UtHh → UtHh) : Option (UtMemory Key Value) :=
  if (memory.nodes address).isSome then some (memory.modify (some address) change) else none

def writeUnlessNull (pointer : Option Nat) (change : UtHh → UtHh) :
    Option (UtMemory Key Value) :=
  match pointer with
  | none => some memory
  | some address => memory.write address change

def putTable (address : Nat) (tbl : UtMemoryTable) : UtMemory Key Value :=
  { memory with tables := Function.update memory.tables address (some tbl) }

def headTable : Option (Nat × UtMemoryTable) := do
  let head ← memory.head
  let node ← memory.nodes head
  let tbl ← memory.tables node.hh.tbl
  some (node.hh.tbl, tbl)

/-- The element after, none when there is no element to begin with. -/
def nextOf (pointer : Option Nat) : Option (Option Nat) :=
  match pointer with
  | none => some none
  | some address => (memory.nodes address).map (·.hh.next)

/-- A pointer to an element that will be deleted goes on to the one after it. -/
def stepOver (entry : Nat) (pointer : Option Nat) : Option (Option Nat) :=
  if some entry = pointer then memory.nextOf pointer else some pointer

def alloc (key : Key) (value : Value) : UtMemory Key Value :=
  { memory with
    nodes := Function.update memory.nodes memory.fresh
      (some { key, value, hh := memory.uninitialized memory.fresh })
    fresh := memory.fresh + 1 }

def forget (address : Nat) : UtMemory Key Value :=
  { memory with nodes := Function.update memory.nodes address none }

def free (address : Nat) : Option (UtMemory Key Value) :=
  if (memory.nodes address).isSome then some (memory.forget address) else none

def freeTable (address : Nat) : Option (UtMemory Key Value) :=
  if (memory.tables address).isSome then
    some { memory with tables := Function.update memory.tables address none }
  else none

def storeValue (address : Nat) (value : Value) : Option (UtMemory Key Value) := do
  let node ← memory.nodes address
  some { memory with nodes := Function.update memory.nodes address (some { node with value }) }

end

/-! `HASH_ADD_KEYPTR`. -/

def hashToBkt (hashv numBkts : BitVec 32) : Nat :=
  (hashv &&& (numBkts - 1)).toNat

def makeTable (memory : UtMemory Key Value) : Option (UtMemory Key Value) := do
  let head ← memory.head
  let address := memory.freshTable
  let memory ← memory.write head ({ · with tbl := address })
  some { memory.putTable address (.make head) with freshTable := address + 1 }

/-- What `HASH_EXPAND_BUCKETS` changes while it moves one handle after the other. -/
structure Expansion (Key Value : Type) where
  memory : UtMemory Key Value
  newBuckets : List UtMemoryBucket
  nonidealItems : BitVec 32 := 0

/-- `++count`, and what follows when the chain gets longer than it should. A division by
zero is undefined. -/
def countInBucket (idealChainMaxlen nonidealItems : BitVec 32) (newbkt : UtMemoryBucket) :
    Option (BitVec 32 × UtMemoryBucket) :=
  let count := newbkt.count + 1
  if idealChainMaxlen < count then
    if idealChainMaxlen = 0 then none
    else some (nonidealItems + 1, { newbkt with count, expandMult := count / idealChainMaxlen })
  else some (nonidealItems, { newbkt with count })

def moveToNewBucket (idealChainMaxlen numBuckets : BitVec 32) (thh : Nat)
    (expansion : Expansion Key Value) : Option (Expansion Key Value) := do
  let node ← expansion.memory.nodes thh
  let bkt := hashToBkt node.hh.hashv (numBuckets * 2)
  let newbkt ← expansion.newBuckets[bkt]?
  let (nonidealItems, counted) ←
    countInBucket idealChainMaxlen expansion.nonidealItems newbkt
  let memory ← expansion.memory.write thh
    ({ · with hhPrev := none, hhNext := newbkt.hhHead })
  let memory ← memory.writeUnlessNull newbkt.hhHead ({ · with hhPrev := some thh })
  some
    { memory
      newBuckets := expansion.newBuckets.set bkt { counted with hhHead := some thh }
      nonidealItems }

def redistribute (idealChainMaxlen numBuckets : BitVec 32) :
    Nat → Option Nat → Expansion Key Value → Option (Expansion Key Value)
  | _, none, expansion => some expansion
  | 0, some _, _ => none
  | fuel + 1, some thh, expansion => do
      let node ← expansion.memory.nodes thh
      let moved ← moveToNewBucket idealChainMaxlen numBuckets thh expansion
      redistribute idealChainMaxlen numBuckets fuel node.hh.hhNext moved

/-- The ideal length of a chain with twice as many buckets. -/
def idealChainMaxlen (tbl : UtMemoryTable) : BitVec 32 :=
  (tbl.numItems >>> (tbl.log2NumBuckets + 1)) +
    if tbl.numItems &&& (tbl.numBuckets * 2 - 1) ≠ 0 then 1 else 0

def expandedTable (tbl : UtMemoryTable) (newBuckets : List UtMemoryBucket)
    (nonidealItems : BitVec 32) : UtMemoryTable :=
  let ineffExpands := if tbl.numItems >>> 1 < nonidealItems then tbl.ineffExpands + 1 else 0
  { tbl with
    idealChainMaxlen := idealChainMaxlen tbl
    nonidealItems
    numBuckets := tbl.numBuckets * 2
    log2NumBuckets := tbl.log2NumBuckets + 1
    buckets := newBuckets
    ineffExpands
    noexpand := if 1 < ineffExpands then 1 else tbl.noexpand }

/-- `HASH_EXPAND_BUCKETS`. Shifting by the width of an `unsigned` is undefined. -/
def expandBuckets (memory : UtMemory Key Value) (address : Nat) :
    Option (UtMemory Key Value) := do
  let tbl ← memory.tables address
  if 32 ≤ (tbl.log2NumBuckets + 1).toNat then none else do
    let expansion ← (List.range tbl.numBuckets.toNat).foldlM
      (fun expansion bktI => do
        let bucket ← tbl.buckets[bktI]?
        redistribute (idealChainMaxlen tbl) tbl.numBuckets memory.fresh bucket.hhHead expansion)
      { memory, newBuckets := List.replicate (2 * tbl.numBuckets.toNat) {} }
    some (expansion.memory.putTable address
      (expandedTable tbl expansion.newBuckets expansion.nonidealItems))

def addToBkt (memory : UtMemory Key Value) (bkt addhh : Nat) : Option (UtMemory Key Value) := do
  let node ← memory.nodes addhh
  let tbl ← memory.tables node.hh.tbl
  let head ← tbl.buckets[bkt]?
  let memory ← memory.write addhh ({ · with hhNext := head.hhHead, hhPrev := none })
  let memory ← memory.writeUnlessNull head.hhHead ({ · with hhPrev := some addhh })
  let head := { head with count := head.count + 1, hhHead := some addhh }
  let memory := memory.putTable node.hh.tbl { tbl with buckets := tbl.buckets.set bkt head }
  if (head.expandMult + 1) * BitVec.ofNat 32 utCapacityThresh ≤ head.count ∧
      tbl.noexpand ≠ 1 then
    memory.expandBuckets node.hh.tbl
  else some memory

def append (memory : UtMemory Key Value) (add : Nat) : Option (UtMemory Key Value) := do
  let memory ← memory.write add ({ · with next := none })
  match memory.head with
  | none => do
      let memory ← { memory with head := some add }.write add ({ · with prev := none })
      memory.makeTable
  | some _ => do
      let (address, tbl) ← memory.headTable
      let tail ← tbl.tail
      let memory ← memory.write tail ({ · with next := some add })
      let memory ← memory.write add ({ · with prev := some tail })
      some (memory.putTable address { tbl with tail := some add })

def addKeyptr (hash : Key → Option (BitVec 32)) (memory : UtMemory Key Value) (add : Nat) :
    Option (UtMemory Key Value) := do
  let memory ← memory.append add
  let (address, tbl) ← memory.headTable
  let memory := memory.putTable address { tbl with numItems := tbl.numItems + 1 }
  let memory ← memory.write add ({ · with tbl := address })
  let node ← memory.nodes add
  let hashv ← hash node.key
  let memory ← memory.write add ({ · with hashv })
  memory.addToBkt (hashToBkt hashv tbl.numBuckets) add

/-! `HASH_FIND`. -/

def findInBkt (compare : Key → Key → Option Int) (memory : UtMemory Key Value) (key : Key) :
    Nat → Option Nat → Option (Option Nat)
  | _, none => some none
  | 0, some _ => none
  | fuel + 1, some out => do
      let node ← memory.nodes out
      let order ← compare node.key key
      if order = 0 then some (some out) else findInBkt compare memory key fuel node.hh.hhNext

def find (hash : Key → Option (BitVec 32)) (compare : Key → Key → Option Int)
    (memory : UtMemory Key Value) (key : Key) : Option (Option Nat) :=
  match memory.head with
  | none => some none
  | some _ => do
      let hashv ← hash key
      let (_, tbl) ← memory.headTable
      let bucket ← tbl.buckets[hashToBkt hashv tbl.numBuckets]?
      findInBkt compare memory key memory.fresh bucket.hhHead

/-! `HASH_DELETE`. -/

def delInBkt (memory : UtMemory Key Value) (address : Nat) (tbl : UtMemoryTable)
    (bkt hhDel : Nat) : Option (UtMemory Key Value) := do
  let node ← memory.nodes hhDel
  let head ← tbl.buckets[bkt]?
  let head :=
    { head with
      count := head.count - 1
      hhHead := if head.hhHead = some hhDel then node.hh.hhNext else head.hhHead }
  let memory := memory.putTable address { tbl with buckets := tbl.buckets.set bkt head }
  let memory ← memory.writeUnlessNull node.hh.hhPrev ({ · with hhNext := node.hh.hhNext })
  memory.writeUnlessNull node.hh.hhNext ({ · with hhPrev := node.hh.hhPrev })

def dropItem (memory : UtMemory Key Value) (hashv : BitVec 32) (hhDel : Nat) :
    Option (UtMemory Key Value) := do
  let (address, tbl) ← memory.headTable
  let memory ← memory.delInBkt address tbl (hashToBkt hashv tbl.numBuckets) hhDel
  let (address, tbl) ← memory.headTable
  some (memory.putTable address { tbl with numItems := tbl.numItems - 1 })

def delete (memory : UtMemory Key Value) (delptr : Nat) : Option (UtMemory Key Value) := do
  let node ← memory.nodes delptr
  let (address, tbl) ← memory.headTable
  if node.hh.prev = none ∧ node.hh.next = none then do
    let memory ← memory.freeTable address
    some { memory with head := none }
  else do
    let tail := if tbl.tail = some delptr then node.hh.prev else tbl.tail
    let memory := memory.putTable address { tbl with tail }
    let memory ← memory.writeUnlessNull node.hh.prev ({ · with next := node.hh.next })
    let memory :=
      if node.hh.prev = none then { memory with head := node.hh.next } else memory
    let memory ← memory.writeUnlessNull node.hh.next ({ · with prev := node.hh.prev })
    memory.dropItem node.hh.hashv delptr

/-! `HASH_COUNT` and `HASH_ITER`. -/

def count (memory : UtMemory Key Value) : Option (BitVec 32) :=
  match memory.head with
  | none => some 0
  | some _ => memory.headTable.map fun table => table.2.numItems

/-- `HASH_ITER` from one element on. The element after it is looked up before the body of
the loop comes to the element, which the body may delete. -/
def iterFrom (inState : State → UtMemory Key Value) (body : State → Nat → Option State) :
    Nat → Option Nat → Option Nat → State → Option State
  | _, none, _, state => some state
  | 0, some _, _, _ => none
  | fuel + 1, some el, tmp, state => do
      let state ← body state el
      let following ← (inState state).nextOf tmp
      iterFrom inState body fuel tmp following state

def iter (inState : State → UtMemory Key Value) (body : State → Nat → Option State)
    (state : State) : Option State := do
  let tmp ← (inState state).nextOf (inState state).head
  iterFrom inState body (inState state).fresh (inState state).head tmp state

/-! `HASH_FSCK`, whose complaints are `none` as well. -/

def order (memory : UtMemory Key Value) (address : Nat) : Option (Pointers Nat) :=
  (memory.nodes address).map fun node => { prev := node.hh.prev, next := node.hh.next }

def chain (memory : UtMemory Key Value) (address : Nat) : Option (Pointers Nat) :=
  (memory.nodes address).map fun node => { prev := node.hh.hhPrev, next := node.hh.hhNext }

def fsckList (links : Nat → Option (Pointers Nat)) :
    Nat → Option Nat → Option Nat → BitVec 32 → Option (BitVec 32)
  | _, _, none, count => some count
  | 0, _, some _, _ => none
  | fuel + 1, prev, some thh, count => do
      let pointers ← links thh
      if prev = pointers.prev then fsckList links fuel (some thh) pointers.next (count + 1)
      else none

def fsck (memory : UtMemory Key Value) : Option Unit :=
  match memory.head with
  | none => some ()
  | some head => do
      let (_, tbl) ← memory.headTable
      let inBuckets ← (List.range tbl.numBuckets.toNat).foldlM
        (fun count bktI => do
          let bucket ← tbl.buckets[bktI]?
          let bktCount ← fsckList memory.chain memory.fresh none bucket.hhHead 0
          if bucket.count = bktCount then some (count + bktCount) else none) (0 : BitVec 32)
      let inOrder ← fsckList memory.order memory.fresh none (some head) 0
      if inBuckets = tbl.numItems ∧ inOrder = tbl.numItems then some () else none

end UtMemory

end PhpDriver.Data
