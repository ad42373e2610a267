import Mathlib.Algebra.Group.Nat.Defs
import Mathlib.Data.List.Find
import PhpDriver.Data.OrderedMap

namespace PhpDriver.Data

/-! The hash table of `uthash.h`: its elements in the order they were added, and buckets
whose chains are searched with a key comparison only. Hashing and comparing a key may be
undefined. Allocation always succeeds, and the number of buckets stays below `2^32`. -/

structure UtHandle (Key : Type) where
  address : Nat
  key : Key
  hashv : BitVec 32
deriving DecidableEq

structure UtElement (Key Value : Type) extends UtHandle Key where
  value : Value
deriving DecidableEq

structure UtBucket (Key : Type) where
  chain : List (UtHandle Key) := []
  expandMult : Nat := 0
deriving DecidableEq

structure UtTable (Key : Type) where
  log2NumBuckets : Nat
  buckets : List (UtBucket Key)
  ineffExpands : Nat := 0
  noexpand : Bool := false
deriving DecidableEq

def utInitialLog2 : Nat := 5

def utCapacityThresh : Nat := 10

def UtTable.make : UtTable Key :=
  { log2NumBuckets := utInitialLog2, buckets := List.replicate (2 ^ utInitialLog2) {} }

/-- A head pointer. Without elements it is `NULL` and there is no table. `fresh` is the
address the next allocation returns. -/
structure UtHash (Key Value : Type) where
  elements : List (UtElement Key Value) := []
  table : UtTable Key := .make
  fresh : Nat := 0
deriving DecidableEq

def utBucket (hashv : BitVec 32) (log2NumBuckets : Nat) : Nat :=
  hashv.toNat % 2 ^ log2NumBuckets

/-- Putting a handle in front of a chain while the buckets are redistributed, with the
count of items beyond the ideal chain length. -/
def utRedistribute (log2NumBuckets idealChainMaxlen : Nat) :
    List (UtBucket Key) × Nat → UtHandle Key → List (UtBucket Key) × Nat
  | (buckets, nonidealItems), handle =>
      let index := utBucket handle.hashv log2NumBuckets
      let bucket := buckets.getD index {}
      let count := bucket.chain.length + 1
      if idealChainMaxlen < count then
        (buckets.set index
          { chain := handle :: bucket.chain, expandMult := count / idealChainMaxlen },
          nonidealItems + 1)
      else
        (buckets.set index { bucket with chain := handle :: bucket.chain }, nonidealItems)

def UtTable.expandBuckets (table : UtTable Key) (numItems : Nat) : UtTable Key :=
  let log2NumBuckets := table.log2NumBuckets + 1
  let idealChainMaxlen := numItems / 2 ^ log2NumBuckets +
    if numItems % 2 ^ log2NumBuckets ≠ 0 then 1 else 0
  let (buckets, nonidealItems) :=
    (table.buckets.flatMap UtBucket.chain).foldl
      (utRedistribute log2NumBuckets idealChainMaxlen)
      (List.replicate (2 ^ log2NumBuckets) {}, 0)
  let ineffExpands := if numItems / 2 < nonidealItems then table.ineffExpands + 1 else 0
  { log2NumBuckets, buckets, ineffExpands,
    noexpand := table.noexpand || decide (1 < ineffExpands) }

def UtTable.addToBucket (table : UtTable Key) (handle : UtHandle Key) (numItems : Nat) :
    UtTable Key :=
  let index := utBucket handle.hashv table.log2NumBuckets
  let bucket := table.buckets.getD index {}
  let bucket := { bucket with chain := handle :: bucket.chain }
  let table := { table with buckets := table.buckets.set index bucket }
  if (bucket.expandMult + 1) * utCapacityThresh ≤ bucket.chain.length && !table.noexpand then
    table.expandBuckets numItems
  else table

def UtTable.deleteFromBucket (table : UtTable Key) (handle : UtHandle Key) : UtTable Key :=
  let index := utBucket handle.hashv table.log2NumBuckets
  let bucket := table.buckets.getD index {}
  { table with
    buckets := table.buckets.set index
      { bucket with chain := bucket.chain.filter (·.address != handle.address) } }

namespace UtHash

variable (hash : Key → Option (BitVec 32)) (compare : Key → Key → Option Int)

def findInBucket (key : Key) : List (UtHandle Key) → Option (Option (UtHandle Key))
  | [] => some none
  | handle :: rest => do
      let order ← compare handle.key key
      if order = 0 then some (some handle) else findInBucket key rest

/-- `HASH_FIND`: nothing is hashed when there is no table. -/
def find (head : UtHash Key Value) (key : Key) : Option (Option (UtHandle Key)) :=
  if head.elements.isEmpty then some none else do
    let hashv ← hash key
    let index := utBucket hashv head.table.log2NumBuckets
    findInBucket compare key (head.table.buckets.getD index {}).chain

def add (head : UtHash Key Value) (key : Key) (value : Value) : Option (UtHash Key Value) := do
  let table := if head.elements.isEmpty then .make else head.table
  let hashv ← hash key
  let handle : UtHandle Key := { address := head.fresh, key, hashv }
  let elements := head.elements ++ [{ handle with value }]
  some { elements, table := table.addToBucket handle elements.length, fresh := head.fresh + 1 }

/-- `HASH_DEL`. Deleting the only element frees the table. -/
def delete (head : UtHash Key Value) (handle : UtHandle Key) : UtHash Key Value :=
  { head with
    elements := head.elements.filter (·.address != handle.address)
    table := if head.elements.length = 1 then .make else head.table.deleteFromBucket handle }

def setValue (head : UtHash Key Value) (handle : UtHandle Key) (value : Value) :
    UtHash Key Value :=
  { head with
    elements := head.elements.map fun element =>
      if element.address = handle.address then { element with value } else element }

def valueAt (head : UtHash Key Value) (handle : UtHandle Key) : Option Value :=
  (head.elements.find? (·.address == handle.address)).map UtElement.value

def count (head : UtHash Key Value) : BitVec 32 :=
  BitVec.ofNat 32 head.elements.length

end UtHash

/-! Every handle is in the chain of its bucket, and in no other. -/

structure BucketsHold (log2NumBuckets : Nat) (buckets : List (UtBucket Key))
    (handles : List (UtHandle Key)) : Prop where
  length : buckets.length = 2 ^ log2NumBuckets
  chains : ∀ (index : Nat) (bucket : UtBucket Key) (handle : UtHandle Key),
    buckets[index]? = some bucket →
    (handle ∈ bucket.chain ↔
      handle ∈ handles ∧ utBucket handle.hashv log2NumBuckets = index)

theorem utBucket_lt (hashv : BitVec 32) (log2NumBuckets : Nat) :
    utBucket hashv log2NumBuckets < 2 ^ log2NumBuckets :=
  Nat.mod_lt _ (Nat.two_pow_pos log2NumBuckets)

section

variable {log2NumBuckets : Nat} {buckets : List (UtBucket Key)}
variable {handles : List (UtHandle Key)}

theorem bucketsHold_replicate (log2NumBuckets : Nat) :
    BucketsHold log2NumBuckets
      (List.replicate (2 ^ log2NumBuckets) ({} : UtBucket Key)) [] := by
  refine ⟨by simp, ?_⟩
  intro index bucket handle at_
  obtain rfl := List.eq_of_mem_replicate (List.mem_of_getElem? at_)
  simp

namespace BucketsHold

theorem at_ (hold : BucketsHold log2NumBuckets buckets handles) (hashv : BitVec 32) :
    buckets[utBucket hashv log2NumBuckets]? =
      some (buckets.getD (utBucket hashv log2NumBuckets) {}) := by
  have inside := utBucket_lt hashv log2NumBuckets
  rw [← hold.length] at inside
  simp [List.getD, inside]

theorem mem_chain_iff (hold : BucketsHold log2NumBuckets buckets handles)
    (hashv : BitVec 32) (handle : UtHandle Key) :
    handle ∈ (buckets.getD (utBucket hashv log2NumBuckets) {}).chain ↔
      handle ∈ handles ∧
        utBucket handle.hashv log2NumBuckets = utBucket hashv log2NumBuckets :=
  hold.chains _ _ _ (hold.at_ hashv)

theorem set (hold : BucketsHold log2NumBuckets buckets handles) {hashv : BitVec 32}
    {bucket : UtBucket Key} {others : List (UtHandle Key)}
    (replaced : ∀ handle, handle ∈ bucket.chain ↔ handle ∈ others ∧
      utBucket handle.hashv log2NumBuckets = utBucket hashv log2NumBuckets)
    (kept : ∀ handle, utBucket handle.hashv log2NumBuckets ≠ utBucket hashv log2NumBuckets →
      (handle ∈ others ↔ handle ∈ handles)) :
    BucketsHold log2NumBuckets (buckets.set (utBucket hashv log2NumBuckets) bucket)
      others := by
  refine ⟨by rw [List.length_set, hold.length], ?_⟩
  intro index other handle at_
  by_cases same : utBucket hashv log2NumBuckets = index
  · subst same
    rw [List.getElem?_set_self', hold.at_ hashv] at at_
    obtain rfl := Option.some.inj at_
    exact replaced handle
  · rw [List.getElem?_set_ne same] at at_
    rw [hold.chains index other handle at_]
    constructor
    · rintro ⟨member, bucketEq⟩
      exact ⟨(kept handle (by omega)).mpr member, bucketEq⟩
    · rintro ⟨member, bucketEq⟩
      exact ⟨(kept handle (by omega)).mp member, bucketEq⟩

theorem cons (hold : BucketsHold log2NumBuckets buckets handles) (handle : UtHandle Key)
    (expandMult : Nat) :
    BucketsHold log2NumBuckets
      (buckets.set (utBucket handle.hashv log2NumBuckets)
        { chain := handle ::
            (buckets.getD (utBucket handle.hashv log2NumBuckets) {}).chain,
          expandMult })
      (handle :: handles) := by
  apply hold.set
  · intro other
    simp only [List.mem_cons, hold.mem_chain_iff]
    constructor
    · rintro (rfl | ⟨member, same⟩)
      · exact ⟨Or.inl rfl, rfl⟩
      · exact ⟨Or.inr member, same⟩
    · rintro ⟨rfl | member, same⟩
      · exact Or.inl rfl
      · exact Or.inr ⟨member, same⟩
  · intro other different
    simp only [List.mem_cons, or_iff_right_iff_imp]
    rintro rfl
    exact absurd rfl different

theorem congr (hold : BucketsHold log2NumBuckets buckets handles)
    {others : List (UtHandle Key)} (same : ∀ handle, handle ∈ others ↔ handle ∈ handles) :
    BucketsHold log2NumBuckets buckets others :=
  ⟨hold.length, fun index bucket handle at_ => by
    rw [hold.chains index bucket handle at_, same]⟩

theorem mem_flatMap_iff (hold : BucketsHold log2NumBuckets buckets handles)
    (handle : UtHandle Key) :
    handle ∈ buckets.flatMap UtBucket.chain ↔ handle ∈ handles := by
  rw [List.mem_flatMap]
  constructor
  · rintro ⟨bucket, member, inChain⟩
    obtain ⟨index, at_⟩ := List.getElem?_of_mem member
    exact ((hold.chains index bucket handle at_).mp inChain).1
  · intro member
    exact ⟨_, List.mem_of_getElem? (hold.at_ handle.hashv),
      (hold.mem_chain_iff handle.hashv handle).mpr ⟨member, rfl⟩⟩

theorem redistribute (hold : BucketsHold log2NumBuckets buckets handles)
    (idealChainMaxlen nonidealItems : Nat) (handle : UtHandle Key) :
    BucketsHold log2NumBuckets
      (utRedistribute log2NumBuckets idealChainMaxlen (buckets, nonidealItems) handle).1
      (handle :: handles) := by
  simp only [utRedistribute]
  split
  · exact hold.cons handle _
  · exact hold.cons handle _

theorem redistribute_all (hold : BucketsHold log2NumBuckets buckets handles)
    (idealChainMaxlen nonidealItems : Nat) (more : List (UtHandle Key)) :
    BucketsHold log2NumBuckets
      (more.foldl (utRedistribute log2NumBuckets idealChainMaxlen)
        (buckets, nonidealItems)).1
      (more.reverse ++ handles) := by
  induction more generalizing buckets nonidealItems handles with
  | nil => exact hold
  | cons handle more ih =>
      have step := hold.redistribute idealChainMaxlen nonidealItems handle
      rw [List.foldl_cons, List.reverse_cons, List.append_assoc, List.singleton_append]
      exact ih step _

theorem filter (hold : BucketsHold log2NumBuckets buckets handles) (handle : UtHandle Key)
    (onlyIn : ∀ other ∈ handles, other.address = handle.address →
      utBucket other.hashv log2NumBuckets = utBucket handle.hashv log2NumBuckets) :
    BucketsHold log2NumBuckets
      (buckets.set (utBucket handle.hashv log2NumBuckets)
        { buckets.getD (utBucket handle.hashv log2NumBuckets) {} with
          chain := (buckets.getD (utBucket handle.hashv log2NumBuckets) {}).chain.filter
            (·.address != handle.address) })
      (handles.filter (·.address != handle.address)) := by
  apply hold.set
  · intro other
    simp only [List.mem_filter, hold.mem_chain_iff]
    exact and_right_comm
  · intro other different
    simp only [List.mem_filter, bne_iff_ne, ne_eq, and_iff_left_iff_imp]
    rintro member same
    exact different (onlyIn other member same)

end BucketsHold

namespace UtTable

theorem make_holds :
    BucketsHold utInitialLog2 (UtTable.make : UtTable Key).buckets [] :=
  bucketsHold_replicate utInitialLog2

theorem expandBuckets_holds {table : UtTable Key}
    (hold : BucketsHold table.log2NumBuckets table.buckets handles) (numItems : Nat) :
    BucketsHold (table.expandBuckets numItems).log2NumBuckets
      (table.expandBuckets numItems).buckets handles := by
  refine ((bucketsHold_replicate (table.log2NumBuckets + 1)).redistribute_all _ 0
    (table.buckets.flatMap UtBucket.chain)).congr ?_
  intro handle
  rw [List.append_nil, List.mem_reverse, hold.mem_flatMap_iff]

theorem addToBucket_holds {table : UtTable Key}
    (hold : BucketsHold table.log2NumBuckets table.buckets handles)
    (handle : UtHandle Key) (numItems : Nat) :
    BucketsHold (table.addToBucket handle numItems).log2NumBuckets
      (table.addToBucket handle numItems).buckets (handle :: handles) := by
  have added := hold.cons handle
    (table.buckets.getD (utBucket handle.hashv table.log2NumBuckets) {}).expandMult
  rw [addToBucket]
  split
  · exact expandBuckets_holds added numItems
  · exact added

theorem deleteFromBucket_holds {table : UtTable Key}
    (hold : BucketsHold table.log2NumBuckets table.buckets handles) {handle : UtHandle Key}
    (onlyIn : ∀ other ∈ handles, other.address = handle.address → other = handle) :
    BucketsHold (table.deleteFromBucket handle).log2NumBuckets
      (table.deleteFromBucket handle).buckets
      (handles.filter (·.address != handle.address)) := by
  apply hold.filter handle
  intro other member same
  rw [onlyIn other member same]

end UtTable

end

namespace UtHash

variable {hash : Key → Option (BitVec 32)} {compare : Key → Key → Option Int}

def handles (head : UtHash Key Value) : List (UtHandle Key) :=
  head.elements.map UtElement.toUtHandle

def next (head : UtHash Key Value) (handle : UtHandle Key) : Option (UtHandle Key) :=
  ((head.handles.dropWhile (·.address != handle.address)).drop 1).head?

/-- The elements have addresses of their own, and the chains hold what is linked. -/
structure Linked (head : UtHash Key Value) : Prop where
  fresh : ∀ handle ∈ head.handles, handle.address < head.fresh
  nodup : (head.handles.map UtHandle.address).Nodup
  table : head.elements ≠ [] →
    BucketsHold head.table.log2NumBuckets head.table.buckets head.handles

structure Consistent (hash : Key → Option (BitVec 32)) (head : UtHash Key Value) : Prop where
  fresh : ∀ handle ∈ head.handles, handle.address < head.fresh
  nodup : (head.handles.map UtHandle.address).Nodup
  hashed : ∀ handle ∈ head.handles, hash handle.key = some handle.hashv
  table : head.elements ≠ [] →
    BucketsHold head.table.log2NumBuckets head.table.buckets head.handles

theorem Consistent.empty : Consistent hash ({} : UtHash Key Value) where
  fresh := by simp [handles]
  nodup := by simp [handles]
  hashed := by simp [handles]
  table := by simp

section

variable {head : UtHash Key Value}

theorem Linked.empty : Linked ({} : UtHash Key Value) where
  fresh := by simp [handles]
  nodup := by simp [handles]
  table := by simp

theorem Consistent.linked (consistent : Consistent hash head) : Linked head where
  fresh := consistent.fresh
  nodup := consistent.nodup
  table := consistent.table

theorem Linked.consistent (linked : Linked head)
    (hashed : ∀ handle ∈ head.handles, hash handle.key = some handle.hashv) :
    Consistent hash head where
  fresh := linked.fresh
  nodup := linked.nodup
  hashed := hashed
  table := linked.table

theorem Linked.eq_of_address (linked : Linked head) {first second : UtHandle Key}
    (firstIn : first ∈ head.handles) (secondIn : second ∈ head.handles)
    (same : first.address = second.address) : first = second :=
  List.inj_on_of_nodup_map linked.nodup firstIn secondIn same

theorem Consistent.eq_of_address (consistent : Consistent hash head) {first second : UtHandle Key}
    (firstIn : first ∈ head.handles) (secondIn : second ∈ head.handles)
    (same : first.address = second.address) : first = second :=
  consistent.linked.eq_of_address firstIn secondIn same

/-- The chain search stops at the first handle whose key compares as equal. -/
theorem findInBucket_cases {key : Key} {chain : List (UtHandle Key)}
    (defined_ : ∀ handle ∈ chain, (compare handle.key key).isSome) :
    (findInBucket compare key chain = some none ∧
      ∀ handle ∈ chain, compare handle.key key ≠ some 0) ∨
    ∃ handle ∈ chain, findInBucket compare key chain = some (some handle) ∧
      compare handle.key key = some 0 := by
  induction chain with
  | nil => exact Or.inl ⟨rfl, by simp⟩
  | cons handle rest ih =>
      obtain ⟨order, compared⟩ :=
        Option.isSome_iff_exists.mp (defined_ handle List.mem_cons_self)
      rw [findInBucket, compared, Option.bind_eq_bind, Option.bind_some]
      by_cases zero : order = 0
      · subst zero
        exact Or.inr ⟨handle, List.mem_cons_self, by simp, compared⟩
      · rw [if_neg zero]
        obtain ⟨missing, all⟩ | ⟨found, member, result, equal⟩ :=
          ih fun other member => defined_ other (List.mem_cons_of_mem _ member)
        · refine Or.inl ⟨missing, ?_⟩
          rintro other (_ | ⟨_, member⟩)
          · rw [compared, ne_eq, Option.some.injEq]
            exact zero
          · exact all other member
        · exact Or.inr ⟨found, List.mem_cons_of_mem _ member, result, equal⟩

/-- What `HASH_FIND` needs of a key to find the element of the same meaning: the key can
be hashed, keys of one meaning have one hash, and in its bucket the comparison tells the
meanings apart. -/
structure Finds (hash : Key → Option (BitVec 32)) (compare : Key → Key → Option Int)
    (meaning : Key → Meaning) (head : UtHash Key Value) (key : Key) : Prop where
  hashed : head.elements ≠ [] → (hash key).isSome
  hash_eq : ∀ handle ∈ head.handles, meaning handle.key = meaning key →
    hash handle.key = hash key
  compared : ∀ handle ∈ head.handles, ∀ hashv, hash key = some hashv →
    utBucket handle.hashv head.table.log2NumBuckets =
      utBucket hashv head.table.log2NumBuckets →
    ∃ order, compare handle.key key = some order ∧
      (order = 0 ↔ meaning handle.key = meaning key)

theorem Consistent.find_cases {meaning : Key → Meaning} {key : Key}
    (consistent : Consistent hash head) (finds : Finds hash compare meaning head key) :
    (head.find hash compare key = some none ∧
      ∀ handle ∈ head.handles, meaning handle.key ≠ meaning key) ∨
    ∃ handle ∈ head.handles, head.find hash compare key = some (some handle) ∧
      meaning handle.key = meaning key := by
  rw [find]
  cases elements : head.elements with
  | nil => exact Or.inl ⟨rfl, by simp [handles, elements]⟩
  | cons first rest =>
      have present : head.elements ≠ [] := by simp [elements]
      have hold := consistent.table present
      obtain ⟨hashv, hashed⟩ := Option.isSome_iff_exists.mp (finds.hashed present)
      simp only [List.isEmpty_cons, Bool.false_eq_true, if_false, hashed, Option.bind_eq_bind,
        Option.bind_some]
      have inChain := hold.mem_chain_iff hashv
      obtain ⟨missing, all⟩ | ⟨found, member, result, equal⟩ := @findInBucket_cases _ compare key
        (head.table.buckets.getD (utBucket hashv head.table.log2NumBuckets) {}).chain (by
          intro handle member
          obtain ⟨inHandles, same⟩ := (inChain handle).mp member
          obtain ⟨order, compared, _⟩ := finds.compared handle inHandles hashv hashed same
          simp [compared])
      · refine Or.inl ⟨missing, ?_⟩
        intro handle inHandles same
        have sameHash : handle.hashv = hashv := by
          have hashes := finds.hash_eq handle inHandles same
          rw [consistent.hashed handle inHandles, hashed] at hashes
          exact Option.some.inj hashes
        have sameBucket : utBucket handle.hashv head.table.log2NumBuckets =
            utBucket hashv head.table.log2NumBuckets := by rw [sameHash]
        obtain ⟨order, compared, zero⟩ :=
          finds.compared handle inHandles hashv hashed sameBucket
        apply all handle ((inChain handle).mpr ⟨inHandles, sameBucket⟩)
        rw [compared, zero.mpr same]
      · obtain ⟨inHandles, sameBucket⟩ := (inChain found).mp member
        obtain ⟨order, compared, zero⟩ := finds.compared found inHandles hashv hashed sameBucket
        rw [compared, Option.some.injEq] at equal
        exact Or.inr ⟨found, inHandles, result, zero.mp equal⟩

theorem findInBucket_mem {key : Key} {chain : List (UtHandle Key)} {handle : UtHandle Key}
    (found : findInBucket compare key chain = some (some handle)) : handle ∈ chain := by
  induction chain with
  | nil => cases found
  | cons first rest ih =>
      rw [findInBucket, Option.bind_eq_bind, Option.bind_eq_some_iff] at found
      obtain ⟨order, _, found⟩ := found
      split at found
      · obtain rfl := Option.some.inj (Option.some.inj found)
        exact List.mem_cons_self
      · exact List.mem_cons_of_mem _ (ih found)

theorem Linked.bucket_of_find (linked : Linked head) {key : Key}
    {handle : UtHandle Key} (found : head.find hash compare key = some (some handle)) :
    handle ∈ head.handles ∧ ∃ hashv, hash key = some hashv ∧
      utBucket handle.hashv head.table.log2NumBuckets =
        utBucket hashv head.table.log2NumBuckets := by
  rw [find] at found
  split at found
  · cases found
  · rename_i present
    rw [Option.bind_eq_bind, Option.bind_eq_some_iff] at found
    obtain ⟨hashv, hashed, found⟩ := found
    have hold := linked.table fun empty => present (by simp [empty])
    obtain ⟨member, same⟩ := (hold.mem_chain_iff hashv handle).mp (findInBucket_mem found)
    exact ⟨member, hashv, hashed, same⟩

theorem Linked.mem_of_find (linked : Linked head) {key : Key}
    {handle : UtHandle Key} (found : head.find hash compare key = some (some handle)) :
    handle ∈ head.handles :=
  (linked.bucket_of_find found).1

theorem Consistent.mem_of_find (consistent : Consistent hash head) {key : Key}
    {handle : UtHandle Key} (found : head.find hash compare key = some (some handle)) :
    handle ∈ head.handles :=
  consistent.linked.mem_of_find found

structure Answers (hash : Key → Option (BitVec 32)) (compare : Key → Key → Option Int)
    (head : UtHash Key Value) (key : Key) : Prop where
  hashes : (hash key).isSome
  compares : ∀ handle ∈ head.handles, (compare handle.key key).isSome

theorem Linked.find_isSome (linked : Linked head) {key : Key}
    (answers : Answers hash compare head key) : (head.find hash compare key).isSome := by
  have searched (chain : List (UtHandle Key))
      (compares : ∀ handle ∈ chain, (compare handle.key key).isSome) :
      (findInBucket compare key chain).isSome := by
    induction chain with
    | nil => rfl
    | cons first rest ih =>
        obtain ⟨here, later⟩ := List.forall_mem_cons.mp compares
        obtain ⟨order, compared⟩ := Option.isSome_iff_exists.mp here
        rw [findInBucket, compared, Option.bind_eq_bind, Option.bind_some]
        split
        · rfl
        · exact ih later
  rw [find]
  split
  · rfl
  · rename_i present
    obtain ⟨hashv, hashed⟩ := Option.isSome_iff_exists.mp answers.hashes
    rw [hashed, Option.bind_eq_bind, Option.bind_some]
    have hold := linked.table fun empty => present (by simp [empty])
    exact searched _ fun handle member =>
      answers.compares handle ((hold.mem_chain_iff hashv handle).mp member).1

theorem Answers.add_isSome {key : Key} (answers : Answers hash compare head key)
    (value : Value) : (head.add hash key value).isSome := by
  obtain ⟨hashv, hashed⟩ := Option.isSome_iff_exists.mp answers.hashes
  simp [add, hashed]

/-- A comparison that finds the key equal to all the others finds whatever its bucket has. -/
theorem Consistent.find_blind (consistent : Consistent hash head) {key : Key}
    {hashv : BitVec 32} (hashed : hash key = some hashv)
    (blind : ∀ handle ∈ head.handles, compare handle.key key = some 0) :
    (head.find hash compare key).isSome ∧
      (head.find hash compare key = some none ↔ ∀ handle ∈ head.handles,
        utBucket handle.hashv head.table.log2NumBuckets ≠
          utBucket hashv head.table.log2NumBuckets) := by
  rw [find]
  cases elements : head.elements with
  | nil => simp [handles, elements]
  | cons first rest =>
      have hold := consistent.table (by simp [elements])
      have inChain := hold.mem_chain_iff hashv
      simp only [List.isEmpty_cons, Bool.false_eq_true, if_false, hashed, Option.bind_eq_bind,
        Option.bind_some]
      cases chain : (head.table.buckets.getD
          (utBucket hashv head.table.log2NumBuckets) {}).chain with
      | nil =>
          simp only [chain, List.not_mem_nil, false_iff, not_and] at inChain
          exact ⟨rfl, fun _ => inChain, fun _ => rfl⟩
      | cons found others =>
          have there := (inChain found).mp (by
            rw [chain]
            exact List.mem_cons_self)
          rw [findInBucket, blind found there.1]
          refine ⟨rfl, fun missing => by simp at missing, ?_⟩
          intro apart
          exact absurd there.2 (apart found there.1)

theorem elements_add {key : Key} {value : Value} {after : UtHash Key Value}
    (added : head.add hash key value = some after) :
    ∃ hashv, after.elements = head.elements ++ [{ address := head.fresh, key, hashv, value }] := by
  rw [add, Option.bind_eq_bind, Option.bind_eq_some_iff] at added
  obtain ⟨hashv, _, added⟩ := added
  obtain rfl := Option.some.inj added
  exact ⟨hashv, rfl⟩

/-- A table does not grow on behalf of a key that is alone in its bucket. -/
theorem log2NumBuckets_add {key : Key} {value : Value} {hashv : BitVec 32}
    {after : UtHash Key Value} (consistent : Consistent hash head)
    (hashed : hash key = some hashv) (added : head.add hash key value = some after)
    (alone : ∀ handle ∈ head.handles, utBucket handle.hashv head.table.log2NumBuckets ≠
      utBucket hashv head.table.log2NumBuckets) :
    after.table.log2NumBuckets =
      if head.elements.isEmpty then utInitialLog2 else head.table.log2NumBuckets := by
  have unchanged (table : UtTable Key) (handle : UtHandle Key) (numItems : Nat)
      (empty : (table.buckets.getD (utBucket handle.hashv table.log2NumBuckets) {}).chain = []) :
      (table.addToBucket handle numItems).log2NumBuckets = table.log2NumBuckets := by
    rw [UtTable.addToBucket]
    split
    · rename_i full
      rw [empty, Bool.and_eq_true, decide_eq_true_eq, List.length_singleton,
        utCapacityThresh] at full
      omega
    · rfl
  rw [add, hashed, Option.bind_eq_bind, Option.bind_some] at added
  obtain rfl := Option.some.inj added
  simp only
  rw [unchanged]
  · split <;> rfl
  · cases elements : head.elements with
    | nil =>
        simp only [List.isEmpty_nil, if_true]
        have hold := @UtTable.make_holds Key
        apply List.eq_nil_iff_forall_not_mem.mpr
        intro handle member
        exact absurd ((hold.mem_chain_iff hashv handle).mp member).1 List.not_mem_nil
    | cons first rest =>
        simp only [List.isEmpty_cons, Bool.false_eq_true, if_false]
        have hold := consistent.table (by simp [elements])
        apply List.eq_nil_iff_forall_not_mem.mpr
        intro handle member
        obtain ⟨there, same⟩ := (hold.mem_chain_iff hashv handle).mp member
        exact alone handle there same

theorem handles_add {key : Key} {value : Value} {after : UtHash Key Value}
    (added : head.add hash key value = some after) :
    ∃ hashv, hash key = some hashv ∧
      after.handles = head.handles ++ [{ address := head.fresh, key, hashv }] := by
  rw [add, Option.bind_eq_bind, Option.bind_eq_some_iff] at added
  obtain ⟨hashv, hashed, added⟩ := added
  obtain rfl := Option.some.inj added
  exact ⟨hashv, hashed, by simp [handles]⟩

theorem Linked.add (linked : Linked head) {key : Key} {value : Value} {after : UtHash Key Value}
    (added : head.add hash key value = some after) : Linked after := by
  have fresh := linked.fresh
  have table : BucketsHold
      (if head.elements.isEmpty then UtTable.make else head.table).log2NumBuckets
      (if head.elements.isEmpty then UtTable.make else head.table).buckets head.handles := by
    cases elements : head.elements with
    | nil =>
        rw [handles, elements]
        exact UtTable.make_holds
    | cons first rest => simpa using linked.table (by simp [elements])
  obtain ⟨hashv, hashed, handlesEq⟩ := handles_add added
  rw [UtHash.add, hashed, Option.bind_eq_bind, Option.bind_some] at added
  obtain rfl := Option.some.inj added
  constructor
  · intro handle member
    rw [handlesEq, List.mem_append, List.mem_singleton] at member
    rcases member with old | rfl
    · exact Nat.lt_succ_of_lt (fresh handle old)
    · exact Nat.lt_succ_self head.fresh
  · rw [handlesEq, List.map_append, List.nodup_append']
    refine ⟨linked.nodup, List.nodup_singleton _, ?_⟩
    intro address old new
    obtain ⟨handle, member, rfl⟩ := List.mem_map.mp old
    have less := fresh handle member
    rw [List.mem_singleton.mp new] at less
    exact Nat.lt_irrefl _ less
  · intro _
    rw [handlesEq]
    refine (UtTable.addToBucket_holds table { address := head.fresh, key, hashv } _).congr ?_
    intro handle
    simp [or_comm]

theorem Consistent.add (consistent : Consistent hash head) {key : Key} {hashv : BitVec 32}
    (hashed : hash key = some hashv) (value : Value) :
    ∃ after, head.add hash key value = some after ∧ Consistent hash after ∧
      after.elements = head.elements ++ [{ address := head.fresh, key, hashv, value }] := by
  obtain ⟨after, added⟩ : ∃ after, head.add hash key value = some after := by
    rw [UtHash.add, hashed]
    exact ⟨_, rfl⟩
  have elements : after.elements =
      head.elements ++ [{ address := head.fresh, key, hashv, value }] := by
    rw [UtHash.add, hashed, Option.bind_eq_bind, Option.bind_some] at added
    obtain rfl := Option.some.inj added
    rfl
  refine ⟨after, added, (consistent.linked.add added).consistent ?_, elements⟩
  intro handle member
  rw [handles, elements, List.map_append, List.mem_append] at member
  rcases member with old | new
  · exact consistent.hashed handle old
  · rw [List.map_singleton, List.mem_singleton] at new
    rw [new]
    exact hashed

theorem handles_delete (handle : UtHandle Key) :
    (head.delete handle).handles = head.handles.filter (·.address != handle.address) := by
  simp only [handles, delete, List.filter_map]
  rfl

theorem mem_handles_delete {handle other : UtHandle Key} :
    other ∈ (head.delete handle).handles ↔
      other ∈ head.handles ∧ other.address ≠ handle.address := by
  simp [handles_delete]

theorem Linked.delete (linked : Linked head) {handle : UtHandle Key}
    (member : handle ∈ head.handles) : Linked (head.delete handle) := by
  constructor
  · exact fun other inAfter => linked.fresh other (mem_handles_delete.mp inAfter).1
  · rw [handles_delete]
    exact linked.nodup.sublist (List.filter_sublist.map _)
  · intro remaining
    have several : head.elements.length ≠ 1 := by
      intro single
      obtain ⟨element, only⟩ := List.length_eq_one_iff.mp single
      rw [handles, only, List.map_singleton, List.mem_singleton] at member
      apply remaining
      rw [UtHash.delete, only, member]
      simp
    have nonempty : head.elements ≠ [] := by
      rintro empty
      apply remaining
      rw [UtHash.delete, empty]
      rfl
    rw [handles_delete]
    simp only [UtHash.delete, if_neg several]
    exact UtTable.deleteFromBucket_holds (linked.table nonempty) fun other inHandles same =>
      linked.eq_of_address inHandles member same

theorem Consistent.delete (consistent : Consistent hash head) {handle : UtHandle Key}
    (member : handle ∈ head.handles) : Consistent hash (head.delete handle) :=
  (consistent.linked.delete member).consistent fun other inAfter =>
    consistent.hashed other (mem_handles_delete.mp inAfter).1

theorem handles_setValue (handle : UtHandle Key) (value : Value) :
    (head.setValue handle value).handles = head.handles := by
  simp only [handles, setValue, List.map_map]
  apply List.map_congr_left
  intro element _
  simp only [Function.comp_apply]
  split <;> rfl

theorem Linked.setValue (linked : Linked head) (handle : UtHandle Key) (value : Value) :
    Linked (head.setValue handle value) where
  fresh := by
    rw [handles_setValue]
    exact linked.fresh
  nodup := by
    rw [handles_setValue]
    exact linked.nodup
  table := by
    intro present
    rw [handles_setValue]
    exact linked.table fun empty => present (by simp [UtHash.setValue, empty])

theorem Consistent.setValue (consistent : Consistent hash head) (handle : UtHandle Key)
    (value : Value) : Consistent hash (head.setValue handle value) :=
  (consistent.linked.setValue handle value).consistent (by
    rw [handles_setValue]
    exact consistent.hashed)

end

/-! The map a table stands for: every key by its meaning. -/

section

variable {Meaning : Type} (meaning : Key → Meaning)

structure Represents (hash : Key → Option (BitVec 32)) (head : UtHash Key Value)
    (map : OrderedMap Meaning Value) : Prop where
  consistent : Consistent hash head
  entries : head.elements.map (fun element => (meaning element.key, element.value)) = map
  nodup : map.keys.Nodup

variable {meaning} {head : UtHash Key Value} {map : OrderedMap Meaning Value}

namespace Represents

theorem empty : Represents meaning hash ({} : UtHash Key Value) [] :=
  ⟨.empty, rfl, List.nodup_nil⟩

theorem keys_eq (represents : Represents meaning hash head map) :
    map.keys = head.handles.map (fun handle => meaning handle.key) := by
  rw [← represents.entries, OrderedMap.keys, handles, List.map_map, List.map_map]
  rfl

theorem mem_keys_iff (represents : Represents meaning hash head map) (key : Key) :
    meaning key ∈ map.keys ↔
      ∃ handle ∈ head.handles, meaning handle.key = meaning key := by
  rw [represents.keys_eq, List.mem_map]

theorem length_eq (represents : Represents meaning hash head map) :
    head.elements.length = map.length := by
  rw [← represents.entries, List.length_map]

/-- Two elements of one table are the same element when their keys mean the same. -/
theorem address_eq_iff (represents : Represents meaning hash head map)
    {first second : UtHandle Key} (firstIn : first ∈ head.handles)
    (secondIn : second ∈ head.handles) :
    first.address = second.address ↔ meaning first.key = meaning second.key := by
  constructor
  · intro same
    rw [represents.consistent.eq_of_address firstIn secondIn same]
  · intro same
    have nodup := represents.nodup
    rw [represents.keys_eq] at nodup
    rw [List.inj_on_of_nodup_map nodup firstIn secondIn same]

theorem handle_mem {element : UtElement Key Value} (member : element ∈ head.elements) :
    element.toUtHandle ∈ head.handles :=
  List.mem_map_of_mem member

theorem find_cases (represents : Represents meaning hash head map) {key : Key}
    (finds : Finds hash compare meaning head key) :
    (head.find hash compare key = some none ∧ meaning key ∉ map.keys) ∨
    ∃ handle ∈ head.handles, head.find hash compare key = some (some handle) ∧
      meaning handle.key = meaning key ∧ meaning key ∈ map.keys := by
  rw [represents.mem_keys_iff]
  obtain ⟨missing, all⟩ | ⟨handle, member, found, same⟩ :=
    represents.consistent.find_cases finds
  · refine Or.inl ⟨missing, ?_⟩
    rintro ⟨handle, member, same⟩
    exact all handle member same
  · exact Or.inr ⟨handle, member, found, same, handle, member, same⟩

variable [DecidableEq Meaning]

theorem add (represents : Represents meaning hash head map) {key : Key}
    (missing : meaning key ∉ map.keys) (hashed : (hash key).isSome) (value : Value) :
    ∃ after, head.add hash key value = some after ∧
      Represents meaning hash after (map.set (meaning key) value) := by
  obtain ⟨hashv, hashed⟩ := Option.isSome_iff_exists.mp hashed
  obtain ⟨after, added, consistent, elements⟩ := represents.consistent.add hashed value
  refine ⟨after, added, consistent, ?_, map.nodup_set _ _ represents.nodup⟩
  rw [elements, List.map_append, represents.entries, OrderedMap.set, if_neg missing]
  rfl

theorem delete (represents : Represents meaning hash head map) {handle : UtHandle Key}
    (member : handle ∈ head.handles) :
    Represents meaning hash (head.delete handle) (map.erase (meaning handle.key)) := by
  refine ⟨represents.consistent.delete member, ?_, map.nodup_erase _ represents.nodup⟩
  rw [← represents.entries, UtHash.delete, OrderedMap.erase, List.filter_map]
  congr 1
  apply List.filter_congr
  intro element inElements
  have same := represents.address_eq_iff (handle_mem inElements) member
  rw [Bool.eq_iff_iff]
  simp [same]

theorem setValue (represents : Represents meaning hash head map) {handle : UtHandle Key}
    (member : handle ∈ head.handles) (value : Value) :
    Represents meaning hash (head.setValue handle value)
      (map.set (meaning handle.key) value) := by
  refine ⟨represents.consistent.setValue handle value, ?_, map.nodup_set _ _ represents.nodup⟩
  rw [OrderedMap.set, if_pos ((represents.mem_keys_iff _).mpr ⟨handle, member, rfl⟩),
    ← represents.entries, UtHash.setValue, List.map_map, List.map_map]
  apply List.map_congr_left
  intro element inElements
  have same := represents.address_eq_iff (handle_mem inElements) member
  by_cases equal : meaning element.key = meaning handle.key <;>
    simp [OrderedMap.replaceEntry, same, equal]

theorem valueAt_eq (represents : Represents meaning hash head map) {handle : UtHandle Key}
    (member : handle ∈ head.handles) :
    head.valueAt handle = map.get (meaning handle.key) := by
  rw [← represents.entries, OrderedMap.get, valueAt, List.find?_map, Option.map_map]
  congr 1
  apply List.find?_congr
  intro element inElements
  have same := represents.address_eq_iff (handle_mem inElements) member
  rw [Bool.eq_iff_iff]
  simp [same]

end Represents

end

end UtHash

end PhpDriver.Data
