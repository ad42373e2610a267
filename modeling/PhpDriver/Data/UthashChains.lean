import PhpDriver.Data.UthashMemory

namespace PhpDriver.Data

namespace UtMemory

/-! What a write leaves as it is. -/

section

variable {memory other : UtMemory Key Value}

def content (memory : UtMemory Key Value) (address : Nat) : Option (Key × Value × BitVec 32) :=
  (memory.nodes address).map fun node => (node.key, node.value, node.hh.hashv)

def tblOf (memory : UtMemory Key Value) (address : Nat) : Option Nat :=
  (memory.nodes address).map (·.hh.tbl)

theorem write_eq {address : Nat} (live : (memory.nodes address).isSome)
    (change : UtHh → UtHh) :
    memory.write address change = some (memory.modify (some address) change) :=
  if_pos live

theorem writeUnlessNull_eq {pointer : Option Nat}
    (live : ∀ address, pointer = some address → (memory.nodes address).isSome)
    (change : UtHh → UtHh) :
    memory.writeUnlessNull pointer change = some (memory.modify pointer change) := by
  cases pointer with
  | none => simp [writeUnlessNull, modify]
  | some address => exact write_eq (live address rfl) change

@[simp] theorem isSome_nodes_modify (pointer : Option Nat) (change : UtHh → UtHh)
    (address : Nat) :
    ((memory.modify pointer change).nodes address).isSome = (memory.nodes address).isSome := by
  simp only [modify]
  split <;> simp

@[simp] theorem head_modify (pointer : Option Nat) (change : UtHh → UtHh) :
    (memory.modify pointer change).head = memory.head := rfl

@[simp] theorem tables_modify (pointer : Option Nat) (change : UtHh → UtHh) :
    (memory.modify pointer change).tables = memory.tables := rfl

@[simp] theorem fresh_modify (pointer : Option Nat) (change : UtHh → UtHh) :
    (memory.modify pointer change).fresh = memory.fresh := rfl

theorem map_nodes_modify {project : UtNode Key Value → Data} {pointer : Option Nat}
    {change : UtHh → UtHh}
    (kept : ∀ node, project { node with hh := change node.hh } = project node)
    (address : Nat) :
    ((memory.modify pointer change).nodes address).map project =
      (memory.nodes address).map project := by
  simp only [modify]
  split
  · rw [Option.map_map]
    exact congrFun (congrArg Option.map (funext kept)) _
  · rfl

theorem tblOf_modify {pointer : Option Nat} {change : UtHh → UtHh}
    (kept : ∀ hh, (change hh).tbl = hh.tbl) :
    (memory.modify pointer change).tblOf = memory.tblOf :=
  funext (map_nodes_modify fun node => kept node.hh)

theorem order_modify {pointer : Option Nat} {change : UtHh → UtHh}
    (kept : ∀ hh, (change hh).prev = hh.prev ∧ (change hh).next = hh.next) :
    (memory.modify pointer change).order = memory.order :=
  funext (map_nodes_modify fun node => by simp [kept])

theorem chain_modify {pointer : Option Nat} {change : UtHh → UtHh}
    (kept : ∀ hh, (change hh).hhPrev = hh.hhPrev ∧ (change hh).hhNext = hh.hhNext) :
    (memory.modify pointer change).chain = memory.chain :=
  funext (map_nodes_modify fun node => by simp [kept])

theorem content_modify {pointer : Option Nat} {change : UtHh → UtHh}
    (kept : ∀ hh, (change hh).hashv = hh.hashv) :
    (memory.modify pointer change).content = memory.content :=
  funext (map_nodes_modify fun node => by simp [kept])

theorem order_modify_next (pointer next : Option Nat) :
    (memory.modify pointer ({ · with next })).order = setNext memory.order pointer next := by
  funext address
  simp only [order, modify, setNext]
  split <;> simp [Function.comp_def]

theorem order_modify_prev (pointer prev : Option Nat) :
    (memory.modify pointer ({ · with prev })).order = setPrev memory.order pointer prev := by
  funext address
  simp only [order, modify, setPrev]
  split <;> simp [Function.comp_def]

theorem chain_modify_hhNext (pointer hhNext : Option Nat) :
    (memory.modify pointer ({ · with hhNext })).chain =
      setNext memory.chain pointer hhNext := by
  funext address
  simp only [chain, modify, setNext]
  split <;> simp [Function.comp_def]

theorem chain_modify_hhPrev (pointer hhPrev : Option Nat) :
    (memory.modify pointer ({ · with hhPrev })).chain =
      setPrev memory.chain pointer hhPrev := by
  funext address
  simp only [chain, modify, setPrev]
  split <;> simp [Function.comp_def]

theorem isSome_order (address : Nat) :
    (memory.order address).isSome = (memory.nodes address).isSome := by
  simp [order]

theorem isSome_chain (address : Nat) :
    (memory.chain address).isSome = (memory.nodes address).isSome := by
  simp [chain]

/-- The same elements in the same order, with the same head. The chains of the buckets and
the table may differ. -/
structure SameElements (memory other : UtMemory Key Value) : Prop where
  head : other.head = memory.head
  fresh : other.fresh = memory.fresh
  order : other.order = memory.order
  content : other.content = memory.content
  tblOf : other.tblOf = memory.tblOf

namespace SameElements

theorem refl (memory : UtMemory Key Value) : SameElements memory memory :=
  ⟨rfl, rfl, rfl, rfl, rfl⟩

theorem trans {third : UtMemory Key Value} (first : SameElements memory other)
    (second : SameElements other third) : SameElements memory third :=
  ⟨second.head.trans first.head, second.fresh.trans first.fresh, second.order.trans first.order,
    second.content.trans first.content, second.tblOf.trans first.tblOf⟩

theorem isSome_nodes (same : SameElements memory other) (address : Nat) :
    (other.nodes address).isSome = (memory.nodes address).isSome := by
  rw [← isSome_order, same.order, isSome_order]

theorem stored (same : SameElements memory other) {address : Nat} {hashv : BitVec 32}
    (stored : ∃ node, memory.nodes address = some node ∧ node.hh.hashv = hashv) :
    ∃ node, other.nodes address = some node ∧ node.hh.hashv = hashv := by
  obtain ⟨node, nodeEq, hashed⟩ := stored
  have content := congrFun same.content address
  simp only [UtMemory.content, nodeEq, Option.map_some, Option.map_eq_some_iff,
    Prod.mk.injEq] at content
  obtain ⟨after, afterEq, _, _, afterHashed⟩ := content
  exact ⟨after, afterEq, afterHashed.trans hashed⟩

theorem putTable (memory : UtMemory Key Value) (address : Nat) (tbl : UtMemoryTable) :
    SameElements memory (memory.putTable address tbl) :=
  ⟨rfl, rfl, rfl, rfl, rfl⟩

theorem modify {pointer : Option Nat} {change : UtHh → UtHh}
    (kept : ∀ hh, (change hh).prev = hh.prev ∧ (change hh).next = hh.next ∧
      (change hh).hashv = hh.hashv ∧ (change hh).tbl = hh.tbl) :
    SameElements memory (memory.modify pointer change) where
  head := rfl
  fresh := rfl
  order := order_modify fun hh => ⟨(kept hh).1, (kept hh).2.1⟩
  content := content_modify fun hh => (kept hh).2.2.1
  tblOf := tblOf_modify fun hh => (kept hh).2.2.2

end SameElements

end

def addresses (chain : List (UtHandle Key)) : List Nat :=
  chain.map UtHandle.address

structure ChainOf (memory : UtMemory Key Value) (bucket : UtMemoryBucket)
    (chain : UtBucket Key) : Prop where
  hhHead : bucket.hhHead = (addresses chain.chain).head?
  count : bucket.count.toNat = chain.chain.length
  expandMult : bucket.expandMult.toNat = chain.expandMult
  room : utCapacityThresh * (chain.expandMult + 1) < 2 ^ 32
  links : Chained memory.chain none none (addresses chain.chain)

/-- The buckets have the chains, and no handle is in two of them. -/
structure BucketsOf (memory : UtMemory Key Value) (buckets : List UtMemoryBucket)
    (chains : List (UtBucket Key)) : Prop where
  length : buckets.length = chains.length
  chainOf : ∀ (index : Nat) bucket chain, buckets[index]? = some bucket →
    chains[index]? = some chain → ChainOf memory bucket chain
  apart : ∀ (first second : Nat) firstChain secondChain, chains[first]? = some firstChain →
    chains[second]? = some secondChain → ∀ address ∈ addresses firstChain.chain,
    address ∈ addresses secondChain.chain → first = second

section

variable {memory other : UtMemory Key Value} {buckets : List UtMemoryBucket}
variable {chains : List (UtBucket Key)} {bucket : UtMemoryBucket} {chain : UtBucket Key}

theorem ChainOf.empty (memory : UtMemory Key Value) : ChainOf memory {} ({} : UtBucket Key) where
  hhHead := rfl
  count := rfl
  expandMult := rfl
  room := show utCapacityThresh * (0 + 1) < 2 ^ 32 by decide
  links := trivial

theorem chain_next {handle : UtHandle Key} {rest : List (UtHandle Key)} {before : Option Nat}
    {node : UtNode Key Value}
    (links : Chained memory.chain none before (addresses (handle :: rest)))
    (nodeEq : memory.nodes handle.address = some node) :
    node.hh.hhNext = (addresses rest).head? := by
  have first := links.1
  simp only [chain, nodeEq, Option.map_some, Option.some.injEq, Pointers.mk.injEq,
    Option.or_none] at first
  exact first.2

theorem ChainOf.congr (of : ChainOf memory bucket chain)
    (same : ∀ address ∈ addresses chain.chain, other.chain address = memory.chain address) :
    ChainOf other bucket chain :=
  { of with links := of.links.congr same }

namespace BucketsOf

theorem empty (memory : UtMemory Key Value) (size : Nat) :
    BucketsOf memory (List.replicate size {}) (List.replicate size ({} : UtBucket Key)) where
  length := by simp
  chainOf index bucket chain bucketAt chainAt := by
    obtain rfl := List.eq_of_mem_replicate (List.mem_of_getElem? bucketAt)
    obtain rfl := List.eq_of_mem_replicate (List.mem_of_getElem? chainAt)
    exact .empty memory
  apart first second firstChain secondChain firstAt secondAt address inFirst := by
    obtain rfl := List.eq_of_mem_replicate (List.mem_of_getElem? firstAt)
    cases inFirst

theorem congr (of : BucketsOf memory buckets chains)
    (same : ∀ chain ∈ chains, ∀ address ∈ addresses chain.chain,
      other.chain address = memory.chain address) :
    BucketsOf other buckets chains :=
  { of with
    chainOf := fun index bucket chain bucketAt chainAt =>
      (of.chainOf index bucket chain bucketAt chainAt).congr
        (same chain (List.mem_of_getElem? chainAt)) }

theorem at_ (of : BucketsOf memory buckets chains) {index : Nat} (inside : index < chains.length) :
    ∃ bucket, buckets[index]? = some bucket ∧ chains[index]? = some (chains.getD index {}) ∧
      ChainOf memory bucket (chains.getD index {}) := by
  have insideToo : index < buckets.length := by rwa [of.length]
  have chainAt : chains[index]? = some (chains.getD index {}) := by
    simp [List.getD, inside]
  exact ⟨buckets[index], List.getElem?_eq_getElem insideToo, chainAt,
    of.chainOf _ _ _ (List.getElem?_eq_getElem insideToo) chainAt⟩

theorem set (of : BucketsOf memory buckets chains) {index : Nat}
    (replaced : ChainOf other bucket chain)
    (kept : ∀ (position : Nat) old, position ≠ index → chains[position]? = some old →
      ∀ address ∈ addresses old.chain,
        other.chain address = memory.chain address ∧ address ∉ addresses chain.chain) :
    BucketsOf other (buckets.set index bucket) (chains.set index chain) where
  length := by simp [of.length]
  chainOf position anyBucket anyChain bucketAt chainAt := by
    rw [List.getElem?_set] at bucketAt chainAt
    split at bucketAt
    · rename_i same
      rw [if_pos same] at chainAt
      split at bucketAt
      · split at chainAt
        · obtain rfl := Option.some.inj bucketAt
          obtain rfl := Option.some.inj chainAt
          exact replaced
        · cases chainAt
      · cases bucketAt
    · rename_i different
      rw [if_neg different] at chainAt
      exact (of.chainOf position _ _ bucketAt chainAt).congr fun address member =>
        (kept position _ (Ne.symm different) chainAt address member).1
  apart first second firstChain secondChain firstAt secondAt address inFirst inSecond := by
    rw [List.getElem?_set] at firstAt secondAt
    split at firstAt
    · rename_i firstSame
      split at secondAt
      · rename_i secondSame
        rw [← firstSame, ← secondSame]
      · rename_i secondOther
        split at firstAt
        · obtain rfl := Option.some.inj firstAt
          exact absurd inFirst (kept second _ (Ne.symm secondOther) secondAt address inSecond).2
        · cases firstAt
    · rename_i firstOther
      split at secondAt
      · split at secondAt
        · obtain rfl := Option.some.inj secondAt
          exact absurd inSecond (kept first _ (Ne.symm firstOther) firstAt address inFirst).2
        · cases secondAt
      · exact of.apart first second _ _ firstAt secondAt address inFirst inSecond

end BucketsOf

end

section

variable {memory : UtMemory Key Value} {buckets : List UtMemoryBucket}
variable {chains : List (UtBucket Key)} {bucket : UtMemoryBucket}

def linkFront (memory : UtMemory Key Value) (hhHead : Option Nat) (addhh : Nat) :
    UtMemory Key Value :=
  (memory.modify (some addhh) ({ · with hhPrev := none, hhNext := hhHead })).modify hhHead
    ({ · with hhPrev := some addhh })

theorem sameElements_linkFront (memory : UtMemory Key Value) (hhHead : Option Nat)
    (addhh : Nat) : SameElements memory (memory.linkFront hhHead addhh) := by
  refine SameElements.trans (SameElements.modify ?_)
    (SameElements.modify ?_)
  · exact fun _ => ⟨rfl, rfl, rfl, rfl⟩
  · exact fun _ => ⟨rfl, rfl, rfl, rfl⟩

theorem chain_linkFront_self {hhHead : Option Nat} {addhh : Nat}
    (live : (memory.nodes addhh).isSome) (other : hhHead ≠ some addhh) :
    (memory.linkFront hhHead addhh).chain addhh = some { prev := none, next := hhHead } := by
  obtain ⟨node, nodeEq⟩ := Option.isSome_iff_exists.mp live
  simp [linkFront, chain, modify, other, nodeEq]

theorem chain_linkFront_of_ne {hhHead : Option Nat} {addhh address : Nat}
    (other : address ≠ addhh) :
    (memory.linkFront hhHead addhh).chain address =
      setPrev memory.chain hhHead (some addhh) address := by
  have skipped : (some addhh : Option Nat) ≠ some address := fun same =>
    other (Option.some.inj same).symm
  rw [linkFront, chain_modify_hhPrev]
  simp only [setPrev, chain, modify, if_neg skipped]

theorem mem_addresses_head {chain : List (UtHandle Key)} {address : Nat}
    (isHead : (addresses chain).head? = some address) : address ∈ addresses chain :=
  List.mem_of_head? isHead

theorem BucketsOf.push (of : BucketsOf memory buckets chains) {index : Nat}
    {handle : UtHandle Key} {count expandMult : BitVec 32} {mult : Nat}
    (bucketAt : buckets[index]? = some bucket)
    (live : (memory.nodes handle.address).isSome)
    (outside : ∀ chain ∈ chains, handle.address ∉ addresses chain.chain)
    (counted : count.toNat = (chains.getD index {}).chain.length + 1)
    (multiplied : expandMult.toNat = mult) (room : utCapacityThresh * (mult + 1) < 2 ^ 32) :
    BucketsOf (memory.linkFront bucket.hhHead handle.address)
      (buckets.set index { hhHead := some handle.address, count, expandMult })
      (chains.set index
        { chain := handle :: (chains.getD index {}).chain, expandMult := mult }) := by
  have inside : index < chains.length := by
    rw [← of.length]
    exact (List.getElem?_eq_some_iff.mp bucketAt).1
  obtain ⟨_, sameBucket, chainAt, chainOf⟩ := of.at_ inside
  obtain rfl := Option.some.inj (bucketAt.symm.trans sameBucket)
  have notIn := outside _ (List.mem_of_getElem? chainAt)
  have headNe : bucket.hhHead ≠ some handle.address := by
    rw [chainOf.hhHead]
    exact fun same => notIn (mem_addresses_head same)
  apply of.set
  · refine ⟨rfl, counted, multiplied, room, ?_⟩
    refine chainOf.links.pushFront chainOf.links.nodup ?_ ?_
    · rw [chain_linkFront_self live headNe, chainOf.hhHead, Option.or_none]
    · intro old member
      rw [chain_linkFront_of_ne (by rintro rfl; exact notIn member), chainOf.hhHead]
  · intro position old different oldAt address member
    have apartFrom : address ∉ addresses (chains.getD index {}).chain := fun both =>
      different (of.apart position index _ _ oldAt chainAt address member both)
    have isOther : address ≠ handle.address := by
      rintro rfl
      exact outside old (List.mem_of_getElem? oldAt) member
    constructor
    · rw [chain_linkFront_of_ne isOther, chainOf.hhHead]
      exact setPrev_of_ne fun same => apartFrom (mem_addresses_head same)
    · intro inNew
      rcases List.mem_cons.mp inNew with same | inOld
      · exact isOther same
      · exact apartFrom inOld

theorem linkFront_eq {hhHead : Option Nat} {addhh : Nat} (live : (memory.nodes addhh).isSome)
    (headLive : ∀ address, hhHead = some address → (memory.nodes address).isSome) :
    ((memory.write addhh ({ · with hhPrev := none, hhNext := hhHead })).bind
      fun memory => memory.writeUnlessNull hhHead ({ · with hhPrev := some addhh })) =
        some (memory.linkFront hhHead addhh) := by
  rw [write_eq live, Option.bind_some, writeUnlessNull_eq]
  · rfl
  · intro address isHead
    rw [isSome_nodes_modify]
    exact headLive address isHead

end

end UtMemory

end PhpDriver.Data
