import Mathlib.Data.List.Perm.Basic
import Mathlib.Data.List.Perm.Subperm
import PhpDriver.Data.UthashExpand

namespace PhpDriver.Data

/-- One more element may be added: what is counted stays below `2^32`, ten times the number
of elements and the number of buckets included. -/
structure UtHash.Room (head : UtHash Key Value) : Prop where
  items : utCapacityThresh * (head.elements.length + 2) < 2 ^ 32
  buckets : head.table.log2NumBuckets + 1 < 32

namespace UtMemory

/-! A memory holds what a head pointer of the list of elements stands for. -/

/-- The elements, in the order they point to each other, and nothing else. -/
structure Listed (memory : UtMemory Key Value) (elements : List (UtElement Key Value)) :
    Prop where
  head : memory.head = (addresses (elements.map UtElement.toUtHandle)).head?
  live : ∀ address, (memory.nodes address).isSome ↔
    address ∈ addresses (elements.map UtElement.toUtHandle)
  content : ∀ element ∈ elements,
    memory.content element.address = some (element.key, element.value, element.hashv)
  order : Chained memory.order none none (addresses (elements.map UtElement.toUtHandle))

structure HasTable (memory : UtMemory Key Value) (head : UtHash Key Value) (address : Nat)
    (tbl : UtMemoryTable) : Prop where
  tables : memory.tables = Function.update (fun _ => none) address (some tbl)
  tblOf : ∀ element ∈ addresses head.handles, memory.tblOf element = some address
  tail : tbl.tail = (addresses head.handles).getLast?
  numItems : tbl.numItems.toNat = head.elements.length
  of : TableOf memory tbl head.table

structure Refines (memory : UtMemory Key Value) (head : UtHash Key Value) : Prop where
  linked : head.Linked
  fresh : memory.fresh = head.fresh
  listed : Listed memory head.elements
  empty : head.elements = [] → memory.tables = fun _ => none
  table : head.elements ≠ [] → ∃ address tbl, HasTable memory head address tbl

section

variable {memory other : UtMemory Key Value} {elements : List (UtElement Key Value)}
variable {head : UtHash Key Value}

/-- There are no more elements than addresses that were given out. -/
theorem length_le_fresh (linked : head.Linked) :
    head.elements.length ≤ head.fresh := by
  have inside : head.handles.map UtHandle.address ⊆ List.range head.fresh := by
    intro address member
    obtain ⟨handle, handleIn, rfl⟩ := List.mem_map.mp member
    exact List.mem_range.mpr (linked.fresh handle handleIn)
  have fewer := (List.subperm_of_subset linked.nodup inside).length_le
  rwa [List.length_map, List.length_range, UtHash.handles, List.length_map] at fewer

theorem Listed.congr (listed : Listed memory elements) (same : SameElements memory other) :
    Listed other elements where
  head := same.head.trans listed.head
  live address := by rw [same.isSome_nodes, listed.live]
  content element member := by rw [same.content, listed.content element member]
  order := by rw [same.order]; exact listed.order

theorem Listed.node (listed : Listed memory elements) {element : UtElement Key Value}
    (member : element ∈ elements) : ∃ hh, memory.nodes element.address =
      some { key := element.key, value := element.value, hh } ∧ hh.hashv = element.hashv := by
  have content := listed.content element member
  simp only [UtMemory.content, Option.map_eq_some_iff, Prod.mk.injEq] at content
  obtain ⟨node, nodeEq, keyEq, valueEq, hashvEq⟩ := content
  refine ⟨node.hh, ?_, hashvEq⟩
  rw [nodeEq, ← keyEq, ← valueEq]

theorem Listed.stored (listed : Listed memory elements) {handle : UtHandle Key}
    (member : handle ∈ elements.map UtElement.toUtHandle) :
    ∃ node, memory.nodes handle.address = some node ∧ node.key = handle.key ∧
      node.hh.hashv = handle.hashv := by
  obtain ⟨element, elementIn, rfl⟩ := List.mem_map.mp member
  obtain ⟨hh, nodeEq, hashvEq⟩ := listed.node elementIn
  exact ⟨_, nodeEq, rfl, hashvEq⟩

namespace BucketsOf

variable {buckets : List UtMemoryBucket} {chains : List (UtBucket Key)}

theorem nodup (of : BucketsOf memory buckets chains) :
    (addresses (chains.flatMap UtBucket.chain)).Nodup := by
  rw [addresses, List.map_flatMap, List.nodup_flatMap]
  constructor
  · intro chain member
    obtain ⟨index, chainAt⟩ := List.getElem?_of_mem member
    have inside := (List.getElem?_eq_some_iff.mp chainAt).1
    obtain ⟨bucket, _, sameAt, chainOf⟩ := of.at_ inside
    obtain rfl := Option.some.inj (chainAt.symm.trans sameAt)
    exact chainOf.links.nodup
  · rw [List.pairwise_iff_getElem]
    intro first second inFirst inSecond less address one two
    have := of.apart first second _ _ (List.getElem?_eq_getElem inFirst)
      (List.getElem?_eq_getElem inSecond) address one two
    omega

theorem perm (of : BucketsOf memory buckets chains) {log2NumBuckets : Nat}
    {handles : List (UtHandle Key)} (hold : BucketsHold log2NumBuckets chains handles)
    (nodup : handles.Nodup) : (chains.flatMap UtBucket.chain).Perm handles :=
  (List.perm_ext_iff_of_nodup (of.nodup.of_map _) nodup).mpr hold.mem_flatMap_iff

end BucketsOf

/-- The chains of a table that holds some of the elements can be spread. -/
theorem TableOf.expandable {tbl : UtMemoryTable} {table : UtTable Key} {numItems : Nat}
    {handles : List (UtHandle Key)} (of : TableOf memory tbl table)
    (hold : BucketsHold table.log2NumBuckets table.buckets handles) (nodup : handles.Nodup)
    (stored : ∀ handle ∈ handles, ∃ node,
      memory.nodes handle.address = some node ∧ node.hh.hashv = handle.hashv)
    (length : handles.length = numItems) (fuel : numItems ≤ memory.fresh)
    (items : 0 < numItems) (room : utCapacityThresh * (numItems + 1) < 2 ^ 32)
    (small : table.log2NumBuckets + 1 < 32) : Expandable memory table numItems where
  nodup := of.buckets.nodup
  length := by
    rw [(of.buckets.perm hold nodup).length_eq, length]
  fuel := fuel
  stored handle member := stored handle ((hold.mem_flatMap_iff handle).mp member)
  items := items
  room := room
  small := small

end

/-! `HASH_ADD_TO_BKT`. -/

section

variable {memory : UtMemory Key Value} {tbl : UtMemoryTable} {table : UtTable Key}
variable {handle : UtHandle Key} {handles : List (UtHandle Key)} {numItems address : Nat}

theorem TableOf.inside (of : TableOf memory tbl table) (hashv : BitVec 32) :
    utBucket hashv table.log2NumBuckets < table.buckets.length := by
  rw [of.length]
  exact utBucket_lt _ _

structure Addable (memory : UtMemory Key Value) (table : UtTable Key)
    (handles : List (UtHandle Key)) (handle : UtHandle Key) (numItems : Nat) : Prop where
  hold : BucketsHold table.log2NumBuckets table.buckets handles
  nodup : (addresses (handle :: handles)).Nodup
  stored : ∀ other ∈ handle :: handles, ∃ node,
    memory.nodes other.address = some node ∧ node.hh.hashv = other.hashv
  length : handles.length + 1 = numItems
  fuel : numItems ≤ memory.fresh
  room : utCapacityThresh * (numItems + 1) < 2 ^ 32
  small : table.log2NumBuckets + 1 < 32

theorem Addable.outside (addable : Addable memory table handles handle numItems) :
    ∀ chain ∈ table.buckets, handle.address ∉ addresses chain.chain := by
  intro chain member inChain
  obtain ⟨index, chainAt⟩ := List.getElem?_of_mem member
  obtain ⟨other, otherIn, same⟩ := List.mem_map.mp inChain
  have held := ((addable.hold.chains index chain other chainAt).mp otherIn).1
  apply (List.nodup_cons.mp addable.nodup).1
  rw [← same]
  exact List.mem_map_of_mem held

theorem Addable.chain_length (addable : Addable memory table handles handle numItems)
    (of : TableOf memory tbl table) {chain : UtBucket Key} (member : chain ∈ table.buckets) :
    chain.chain.length + 1 ≤ numItems := by
  have nodup := (List.nodup_cons.mp addable.nodup).2
  have part : chain.chain.Sublist (table.buckets.flatMap UtBucket.chain) := by
    rw [List.flatMap_def]
    exact List.sublist_flatten_of_mem (List.mem_map_of_mem member)
  have all := (of.buckets.perm addable.hold (nodup.of_map _)).length_eq
  rw [← addable.length, ← all]
  exact Nat.succ_le_succ part.length_le

def pushedTable (table : UtTable Key) (handle : UtHandle Key) : UtTable Key :=
  let index := utBucket handle.hashv table.log2NumBuckets
  let bucket := table.buckets.getD index {}
  { table with
    buckets := table.buckets.set index { bucket with chain := handle :: bucket.chain } }

theorem addToBucket_eq (table : UtTable Key) (handle : UtHandle Key) (numItems : Nat) :
    table.addToBucket handle numItems =
      let bucket := table.buckets.getD (utBucket handle.hashv table.log2NumBuckets) {}
      if (bucket.expandMult + 1) * utCapacityThresh ≤ bucket.chain.length + 1 &&
        !table.noexpand then (pushedTable table handle).expandBuckets numItems
      else pushedTable table handle := rfl

theorem addToBkt_refines (of : TableOf memory tbl table)
    (there : memory.tables address = some tbl) (counted : tbl.numItems.toNat = numItems)
    (owner : memory.tblOf handle.address = some address)
    (addable : Addable memory table handles handle numItems) :
    ∃ other after,
      memory.addToBkt (utBucket handle.hashv table.log2NumBuckets) handle.address = some other ∧
      SameElements memory other ∧
      other.tables = Function.update memory.tables address (some after) ∧
      TableOf other after (table.addToBucket handle numItems) ∧
      after.numItems = tbl.numItems ∧ after.tail = tbl.tail := by
  obtain ⟨bucket, bucketAt, chainAt, chainOf⟩ := of.buckets.at_ (of.inside handle.hashv)
  obtain ⟨node, nodeEq, owned⟩ := Option.map_eq_some_iff.mp owner
  have live : (memory.nodes handle.address).isSome := by rw [nodeEq]; rfl
  have headLive : ∀ first, bucket.hhHead = some first → (memory.nodes first).isSome := by
    intro first isHead
    rw [chainOf.hhHead] at isHead
    rw [← isSome_chain]
    exact chainOf.links.isSome (mem_addresses_head isHead)
  have chainRoom := addable.chain_length of (List.mem_of_getElem? chainAt)
  have room := addable.room
  rw [utCapacityThresh] at room
  have countEq : (bucket.count + 1).toNat =
      (table.buckets.getD (utBucket handle.hashv table.log2NumBuckets) {}).chain.length + 1 := by
    rw [BitVec.toNat_add, chainOf.count]
    simp only [BitVec.reduceToNat]
    omega
  have pushed := of.buckets.push bucketAt live addable.outside countEq chainOf.expandMult
    chainOf.room
  let middle := (memory.linkFront bucket.hhHead handle.address).putTable address
    { tbl with
      buckets := tbl.buckets.set (utBucket handle.hashv table.log2NumBuckets)
        { bucket with count := bucket.count + 1, hhHead := some handle.address } }
  have same : SameElements memory middle :=
    (sameElements_linkFront _ _ _).trans (.putTable _ _ _)
  have ofMiddle : TableOf middle
      { tbl with
        buckets := tbl.buckets.set (utBucket handle.hashv table.log2NumBuckets)
          { bucket with count := bucket.count + 1, hhHead := some handle.address } }
      (pushedTable table handle) := by
    refine ⟨of.log2NumBuckets, of.numBuckets, ?_, of.ineffExpands, of.effective, of.noexpand,
      pushed.congr fun _ _ _ _ => rfl⟩
    simp [pushedTable, of.length]
  have written : memory.addToBkt (utBucket handle.hashv table.log2NumBuckets) handle.address =
      if (bucket.expandMult + 1) * BitVec.ofNat 32 utCapacityThresh ≤ bucket.count + 1 ∧
        tbl.noexpand ≠ 1 then middle.expandBuckets address else some middle := by
    simp only [addToBkt, nodeEq, owned, there, bucketAt, Option.bind_eq_bind, Option.bind_some]
    rw [← Option.bind_assoc]
    exact congrArg (Option.bind · _) (linkFront_eq live headLive)
  have full : (bucket.expandMult + 1) * BitVec.ofNat 32 utCapacityThresh ≤ bucket.count + 1 ↔
      ((table.buckets.getD (utBucket handle.hashv table.log2NumBuckets) {}).expandMult + 1) *
        utCapacityThresh ≤ (table.buckets.getD (utBucket handle.hashv table.log2NumBuckets)
          {}).chain.length + 1 := by
    have multRoom := chainOf.room
    rw [BitVec.le_def, countEq, BitVec.toNat_mul, BitVec.toNat_add, chainOf.expandMult]
    rw [utCapacityThresh] at multRoom ⊢
    simp only [BitVec.reduceToNat, BitVec.toNat_ofNat]
    rw [Nat.mod_eq_of_lt (by omega), Nat.mod_eq_of_lt (by omega)]
  have may : tbl.noexpand ≠ 1 ↔ table.noexpand = false := by
    rw [of.noexpand]
    cases table.noexpand <;> simp
  rw [written, addToBucket_eq]
  simp only [full, may, Bool.and_eq_true, decide_eq_true_eq, Bool.not_eq_true']
  split
  · rename_i expands
    have items : 0 < numItems := by
      rw [← addable.length]
      exact Nat.succ_pos _
    have expandable : Expandable middle (pushedTable table handle) numItems :=
      ofMiddle.expandable (addable.hold.cons handle _) (addable.nodup.of_map _)
        (fun other member => same.stored (addable.stored other member)) addable.length
        addable.fuel items addable.room addable.small
    obtain ⟨other, after, expanded, more, tables, ofAfter, items, tail⟩ :=
      ofMiddle.expandBuckets (Function.update_self _ _ _) counted expandable expands.2
    refine ⟨other, after, expanded, same.trans more, ?_, ofAfter, items, tail⟩
    rw [tables]
    exact Function.update_idem _ _ _
  · exact ⟨middle, _, rfl, same, rfl, ofMiddle, rfl, rfl⟩

end

/-! `HASH_ADD_KEYPTR`. -/

section

variable {memory other : UtMemory Key Value} {head : UtHash Key Value} {key : Key}
variable {value : Value} {last : Option Nat} {address : Nat} {tbl : UtMemoryTable}

structure Appended (memory other : UtMemory Key Value) (key : Key) (value : Value)
    (last : Option Nat) (address : Nat) (tbl : UtMemoryTable) : Prop where
  head : other.head = memory.head.or (some memory.fresh)
  fresh : other.fresh = memory.fresh + 1
  added : ∃ hh, other.nodes memory.fresh = some { key, value, hh } ∧ hh.prev = last ∧
    hh.next = none
  others : ∀ old, old ≠ memory.fresh → other.nodes old =
    (memory.modify last ({ · with next := some memory.fresh })).nodes old
  tables : other.tables = Function.update memory.tables address (some tbl)
  headTable : other.headTable = some (address, tbl)

theorem Refines.head_nil (refines : Refines memory head) (elements : head.elements = []) :
    memory.head = none := by
  rw [refines.listed.head, elements]
  rfl

theorem Refines.head_cons (refines : Refines memory head) {first : UtElement Key Value}
    {rest : List (UtElement Key Value)} (elements : head.elements = first :: rest) :
    memory.head = some first.address := by
  rw [refines.listed.head, elements]
  rfl

theorem headTable_eq {first : Nat} (isHead : memory.head = some first)
    (owner : memory.tblOf first = some address) (there : memory.tables address = some tbl) :
    memory.headTable = some (address, tbl) := by
  obtain ⟨node, nodeEq, owned⟩ := Option.map_eq_some_iff.mp owner
  simp [UtMemory.headTable, isHead, nodeEq, owned, there]

theorem Refines.headTable (refines : Refines memory head)
    (hasTable : HasTable memory head address tbl) (present : head.elements ≠ []) :
    memory.headTable = some (address, tbl) := by
  obtain ⟨first, rest, elements⟩ := List.exists_cons_of_ne_nil present
  refine headTable_eq (refines.head_cons elements) (hasTable.tblOf first.address ?_) ?_
  · simp [UtHash.handles, elements, addresses]
  · rw [hasTable.tables, Function.update_self]

theorem Refines.fresh_notMem (refines : Refines memory head) :
    memory.fresh ∉ addresses head.handles := by
  intro member
  obtain ⟨handle, handleIn, same⟩ := List.mem_map.mp member
  have := refines.linked.fresh handle handleIn
  rw [same, refines.fresh] at this
  exact Nat.lt_irrefl _ this

theorem isSome_nodes_alloc (key : Key) (value : Value) :
    ((memory.alloc key value).nodes memory.fresh).isSome := by
  simp [alloc]

theorem nodes_alloc_of_ne {old : Nat} (isOld : old ≠ memory.fresh) :
    (memory.alloc key value).nodes old = memory.nodes old :=
  Function.update_of_ne isOld _ _

theorem head_alloc (key : Key) (value : Value) : (memory.alloc key value).head = memory.head := rfl

theorem append_empty (refines : Refines memory head) (absent : head.elements = []) :
    ∃ other, (memory.alloc key value).append memory.fresh = some other ∧
      Appended memory other key value none memory.freshTable (.make memory.fresh) := by
  have noHead := refines.head_nil absent
  let linked : UtMemory Key Value :=
    { (memory.alloc key value).modify (some memory.fresh) ({ · with next := none }) with
      head := some memory.fresh }
  let owned := (linked.modify (some memory.fresh) ({ · with prev := none })).modify
    (some memory.fresh) ({ · with tbl := memory.freshTable })
  refine ⟨{ owned.putTable memory.freshTable (.make memory.fresh) with
    freshTable := memory.freshTable + 1 }, ?_, ?_⟩
  · simp only [append, makeTable, Option.bind_eq_bind, Option.bind_some, head_modify, write_eq,
      isSome_nodes_modify, isSome_nodes_alloc, head_alloc, noHead, owned, linked]
    rfl
  · constructor
    · simp [putTable, owned, linked, noHead]
    · simp [putTable, owned, linked, alloc]
    · simp [putTable, owned, linked, alloc, modify]
    · intro old isOld
      simp [putTable, owned, linked, alloc, modify, isOld, Ne.symm isOld]
    · simp [putTable, owned, linked, alloc]
    · simp [putTable, owned, linked, alloc, modify, UtMemory.headTable]

theorem append_present (refines : Refines memory head) (present : head.elements ≠ [])
    (hasTable : HasTable memory head address tbl) :
    ∃ other, (memory.alloc key value).append memory.fresh = some other ∧
      Appended memory other key value (addresses head.handles).getLast? address
        { tbl with tail := some memory.fresh } := by
  obtain ⟨first, rest, elements⟩ := List.exists_cons_of_ne_nil present
  have isHead := refines.head_cons elements
  obtain ⟨tail, tailEq⟩ : ∃ tail, (addresses head.handles).getLast? = some tail := by
    simp [UtHash.handles, elements, addresses, List.getLast?_cons]
  have apart := refines.fresh_notMem
  have headNe : first.address ≠ memory.fresh := by
    rintro same
    apply apart
    simp [UtHash.handles, elements, addresses, same]
  have tailNe : tail ≠ memory.fresh := by
    rintro rfl
    exact apart (List.mem_of_getLast? tailEq)
  have tailLive : (memory.nodes tail).isSome := by
    rw [refines.listed.live]
    exact List.mem_of_getLast? tailEq
  have owner : (memory.alloc key value).tblOf first.address = some address := by
    rw [UtMemory.tblOf, nodes_alloc_of_ne headNe]
    exact hasTable.tblOf first.address (by simp [UtHash.handles, elements, addresses])
  have there : memory.tables address = some tbl := by
    rw [hasTable.tables, Function.update_self]
  let linked := (((memory.alloc key value).modify (some memory.fresh)
    ({ · with next := none })).modify (some tail) ({ · with next := some memory.fresh })).modify
      (some memory.fresh) ({ · with prev := some tail })
  have sameTable : ((memory.alloc key value).modify (some memory.fresh)
      ({ · with next := none })).headTable = some (address, tbl) :=
    headTable_eq isHead ((map_nodes_modify (fun _ => rfl) _).trans owner) there
  refine ⟨linked.putTable address { tbl with tail := some memory.fresh }, ?_, ?_⟩
  · have tailIs := hasTable.tail.trans tailEq
    have liveToo : ((memory.alloc key value).nodes tail).isSome := by
      rwa [nodes_alloc_of_ne tailNe]
    simp only [append, Option.bind_eq_bind, Option.bind_some, head_modify, write_eq,
      isSome_nodes_modify, isSome_nodes_alloc, head_alloc, isHead, sameTable, tailIs, liveToo,
      linked]
  · constructor
    · simp [putTable, linked, alloc, isHead]
    · simp [putTable, linked, alloc]
    · simp [putTable, linked, alloc, modify, tailNe, tailEq]
    · intro old isOld
      simp [putTable, linked, alloc, modify, tailEq, isOld, Ne.symm isOld]
    · simp [putTable, linked, alloc]
    · have kept : linked.tblOf = (memory.alloc key value).tblOf := by
        rw [tblOf_modify, tblOf_modify, tblOf_modify]
        all_goals exact fun _ => rfl
      exact headTable_eq isHead ((congrFun kept _).trans owner) (Function.update_self _ _ _)

theorem Appended.isSome_nodes {hh : UtHh} (refines : Refines memory head)
    (added : other.nodes memory.fresh = some { key, value, hh })
    (others : ∀ old, old ≠ memory.fresh → other.nodes old =
      (memory.modify last ({ · with next := some memory.fresh })).nodes old) (address : Nat) :
    (other.nodes address).isSome ↔ address ∈ addresses head.handles ++ [memory.fresh] := by
  rw [List.mem_append, List.mem_singleton]
  by_cases isFresh : address = memory.fresh
  · subst isFresh
    simp [added]
  · rw [others address isFresh, isSome_nodes_modify, refines.listed.live]
    simp only [isFresh, or_false]
    rfl

/-- The element is the last of the list, once its handle is filled in. -/
theorem listed_append {hh : UtHh} (refines : Refines memory head)
    (isHead : other.head = memory.head.or (some memory.fresh))
    (added : other.nodes memory.fresh = some { key, value, hh })
    (prev : hh.prev = (addresses head.handles).getLast?) (next : hh.next = none)
    (others : ∀ old, old ≠ memory.fresh → other.nodes old =
      (memory.modify (addresses head.handles).getLast?
        ({ · with next := some memory.fresh })).nodes old) :
    Listed other
      (head.elements ++ [{ address := head.fresh, key, value, hashv := hh.hashv }]) := by
  have split : addresses ((head.elements ++
      [({ address := head.fresh, key, value, hashv := hh.hashv } : UtElement Key Value)]).map
        UtElement.toUtHandle) = addresses head.handles ++ [memory.fresh] := by
    rw [refines.fresh, List.map_append, addresses, List.map_append]
    rfl
  have apart := refines.fresh_notMem
  have oldNe {old : Nat} (member : old ∈ addresses head.handles) : old ≠ memory.fresh := by
    rintro rfl
    exact apart member
  constructor
  · rw [isHead, refines.listed.head, split, List.head?_append]
    rfl
  · intro address
    rw [split]
    exact Appended.isSome_nodes refines added others address
  · intro element member
    rw [List.mem_append, List.mem_singleton] at member
    rcases member with isOld | rfl
    · have inHandles : element.address ∈ addresses head.handles :=
        List.mem_map_of_mem (List.mem_map_of_mem isOld)
      rw [← refines.listed.content element isOld, UtMemory.content, UtMemory.content,
        others _ (oldNe inHandles)]
      exact map_nodes_modify (fun _ => rfl) _
    · simp only [UtMemory.content, ← refines.fresh, added]
      rfl
  · rw [split]
    have chained := refines.listed.order
    refine Chained.pushBack chained chained.nodup ?_ ?_
    · simp only [UtMemory.order, added, Option.map_some, prev, next, Option.or_none]
      rfl
    · intro old member
      rw [UtMemory.order, others old (oldNe member)]
      exact congrFun (order_modify_next _ _) old

theorem append_refines (refines : Refines memory head) (key : Key) (value : Value) :
    ∃ other address tbl, (memory.alloc key value).append memory.fresh = some other ∧
      Appended memory other key value (addresses head.handles).getLast? address tbl ∧
      tbl.tail = some memory.fresh ∧ tbl.numItems.toNat = head.elements.length ∧
      TableOf memory tbl (if head.elements.isEmpty then .make else head.table) ∧
      (∀ old ∈ addresses head.handles, memory.tblOf old = some address) ∧
      ∀ after, Function.update memory.tables address after =
        Function.update (fun _ => none) address after := by
  cases elements : head.elements with
  | nil =>
      obtain ⟨other, appended, facts⟩ := @append_empty _ _ _ _ key value refines elements
      have noHandles : head.handles = [] := by
        rw [UtHash.handles, elements]
        rfl
      refine ⟨other, memory.freshTable, .make memory.fresh, appended, ?_, rfl, rfl,
        .make memory memory.fresh, ?_, ?_⟩
      · rw [noHandles]
        exact facts
      · rw [noHandles]
        exact fun old member => absurd member List.not_mem_nil
      · rw [refines.empty elements]
        exact fun _ => rfl
  | cons first rest =>
      have present : head.elements ≠ [] := by simp [elements]
      obtain ⟨address, tbl, hasTable⟩ := refines.table present
      obtain ⟨other, appended, facts⟩ :=
        @append_present _ _ _ _ key value _ _ refines present hasTable
      refine ⟨other, address, _, appended, facts, rfl, ?_, ?_, hasTable.tblOf, ?_⟩
      · rw [← elements]
        exact hasTable.numItems
      · exact { hasTable.of with }
      · intro after
        rw [hasTable.tables, Function.update_idem]

/-- Adding an element works on the memory as it does on the list. -/
theorem addKeyptr_refines {hash : Key → Option (BitVec 32)} {after : UtHash Key Value}
    (refines : Refines memory head) (added : head.add hash key value = some after)
    (room : head.Room) :
    ∃ other, (memory.alloc key value).addKeyptr hash memory.fresh = some other ∧
      Refines other after := by
  obtain ⟨hashv, hashed, handlesEq⟩ := UtHash.handles_add added
  have linkedAfter := refines.linked.add added
  rw [UtHash.add, hashed, Option.bind_eq_bind, Option.bind_some, Option.some.injEq] at added
  obtain ⟨first, address, tbl, appended, facts, tail, items, of, owners, tables⟩ :=
    append_refines refines key value
  obtain ⟨hh, nodeEq, prev, next⟩ := facts.added
  have firstLive : (first.nodes memory.fresh).isSome := by rw [nodeEq]; rfl
  let middle := ((first.putTable address { tbl with numItems := tbl.numItems + 1 }).modify
    (some memory.fresh) ({ · with tbl := address })).modify (some memory.fresh)
      ({ · with hashv })
  have middleNode : middle.nodes memory.fresh =
      some { key, value, hh := { hh with tbl := address, hashv } } := by
    simp [middle, modify, putTable, nodeEq]
  have others : ∀ old, old ≠ memory.fresh → middle.nodes old =
      (memory.modify (addresses head.handles).getLast?
        ({ · with next := some memory.fresh })).nodes old := by
    intro old isOld
    rw [← facts.others old isOld]
    simp [middle, modify, putTable, Ne.symm isOld]
  have isHead : middle.head = memory.head.or (some memory.fresh) := facts.head
  have listed := listed_append refines isHead middleNode prev next others
  have apart := refines.fresh_notMem
  have keptChain : ∀ old ∈ addresses head.handles, middle.chain old = memory.chain old := by
    intro old member
    rw [UtMemory.chain, others old (by rintro rfl; exact apart member)]
    exact map_nodes_modify (fun _ => rfl) _
  let base : UtTable Key := if head.elements.isEmpty then .make else head.table
  have hold : BucketsHold base.log2NumBuckets base.buckets head.handles := by
    cases elements : head.elements with
    | nil =>
        simp only [base, elements, UtHash.handles]
        exact UtTable.make_holds
    | cons first rest => simpa [base, elements] using refines.linked.table (by simp [elements])
  have baseSmall : base.log2NumBuckets + 1 < 32 := by
    simp only [base]
    split
    · simp [UtTable.make, utInitialLog2]
    · exact room.buckets
  have ofMiddle : TableOf middle { tbl with numItems := tbl.numItems + 1 } base := by
    refine { of.congr fun chain member old inChain => keptChain old ?_ with }
    obtain ⟨index, chainAt⟩ := List.getElem?_of_mem member
    obtain ⟨handle, handleIn, rfl⟩ := List.mem_map.mp inChain
    exact List.mem_map_of_mem ((hold.chains index chain handle chainAt).mp handleIn).1
  have itemsEq : (tbl.numItems + 1).toNat = head.elements.length + 1 := by
    have few := room.items
    rw [utCapacityThresh] at few
    rw [BitVec.toNat_add, items]
    simp only [BitVec.reduceToNat]
    omega
  have addable : Addable middle base head.handles
      { address := head.fresh, key, hashv } (head.elements.length + 1) := by
    refine ⟨hold, ?_, ?_, ?_, ?_, room.items, baseSmall⟩
    · rw [addresses, List.map_cons, List.nodup_cons, ← refines.fresh]
      exact ⟨apart, refines.linked.nodup⟩
    · intro other member
      have inListed : other ∈ (head.elements ++
          [({ address := head.fresh, key, value, hashv } : UtElement Key Value)]).map
            UtElement.toUtHandle := by
        rw [List.map_append, List.mem_append]
        rcases List.mem_cons.mp member with rfl | isOld
        · exact Or.inr List.mem_cons_self
        · exact Or.inl isOld
      obtain ⟨node, otherEq, _, hashvEq⟩ := listed.stored inListed
      exact ⟨node, otherEq, hashvEq⟩
    · rw [UtHash.handles, List.length_map]
    · have many : middle.fresh = memory.fresh + 1 := facts.fresh
      rw [many, refines.fresh]
      exact Nat.succ_le_succ (length_le_fresh refines.linked)
  have there : middle.tables address = some { tbl with numItems := tbl.numItems + 1 } :=
    Function.update_self _ _ _
  have middleOwner (old : Nat) (member : old ∈ addresses head.handles ++ [memory.fresh]) :
      middle.tblOf old = some address := by
    rw [List.mem_append, List.mem_singleton] at member
    by_cases isFresh : old = memory.fresh
    · rw [isFresh, UtMemory.tblOf, middleNode]
      rfl
    · rw [UtMemory.tblOf, others old isFresh]
      exact (map_nodes_modify (fun _ => rfl) _).trans
        (owners old (member.resolve_right isFresh))
  obtain ⟨other, last, bucketed, same, otherTables, ofOther, lastItems, lastTail⟩ :=
    addToBkt_refines ofMiddle there itemsEq
      (middleOwner head.fresh (by simp [refines.fresh])) addable
  have bktEq : hashToBkt hashv tbl.numBuckets = utBucket hashv base.log2NumBuckets :=
    hashToBkt_eq ofMiddle.numBuckets hashv
  have addressEq : head.fresh = memory.fresh := refines.fresh.symm
  refine ⟨other, ?_, ?_⟩
  · have ownerLive : (((first.putTable address
        { tbl with numItems := tbl.numItems + 1 }).modify (some memory.fresh)
          ({ · with tbl := address })).nodes memory.fresh) =
        some { key, value, hh := { hh with tbl := address } } := by
      simp [modify, putTable, nodeEq]
    have putLive : ((first.putTable address
        { tbl with numItems := tbl.numItems + 1 }).nodes memory.fresh).isSome := firstLive
    rw [addKeyptr, appended, Option.bind_eq_bind, Option.bind_some, facts.headTable,
      Option.bind_eq_bind, Option.bind_some]
    simp only [write_eq putLive, Option.bind_eq_bind, Option.bind_some, ownerLive, hashed]
    rw [write_eq (by rw [ownerLive]; rfl), Option.bind_some, bktEq]
    rw [addressEq] at bucketed
    exact bucketed
  · refine ⟨linkedAfter, ?_, ?_, ?_, ?_⟩
    · rw [same.fresh, ← added]
      exact facts.fresh.trans (by rw [refines.fresh])
    · rw [← added]
      exact listed.congr same
    · rw [← added]
      simp
    · intro _
      have split : addresses after.handles = addresses head.handles ++ [memory.fresh] := by
        rw [handlesEq, addresses, List.map_append, addressEq]
        rfl
      refine ⟨address, last, ?_, ?_, ?_, ?_, ?_⟩
      · have middleTables : middle.tables = Function.update first.tables address
            (some { tbl with numItems := tbl.numItems + 1 }) := rfl
        rw [otherTables, middleTables, facts.tables, Function.update_idem, Function.update_idem,
          tables]
      · intro old member
        rw [split] at member
        rw [same.tblOf]
        exact middleOwner old member
      · rw [lastTail, split, List.getLast?_append]
        exact tail
      · rw [lastItems, itemsEq, ← added, List.length_append]
        rfl
      · rw [← added, List.length_append]
        exact ofOther

end

end UtMemory

end PhpDriver.Data
