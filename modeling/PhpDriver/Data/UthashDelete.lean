import PhpDriver.Data.UthashSearch

namespace PhpDriver.Data

namespace UtMemory

/-! `HASH_DELETE`. -/

theorem filter_address_ne {first second : List (UtHandle Key)} {handle : UtHandle Key}
    (nodup : (addresses (first ++ handle :: second)).Nodup) :
    (first ++ handle :: second).filter (·.address != handle.address) = first ++ second := by
  rw [addresses, List.map_append, List.map_cons, List.nodup_append', List.nodup_cons] at nodup
  obtain ⟨_, ⟨notSecond, _⟩, apart⟩ := nodup
  have others {list : List (UtHandle Key)} (absent : handle.address ∉ addresses list) :
      list.filter (·.address != handle.address) = list := by
    rw [List.filter_eq_self]
    intro other member
    rw [bne_iff_ne]
    intro same
    apply absent
    rw [← same]
    exact List.mem_map_of_mem member
  rw [List.filter_append, List.filter_cons_of_neg (by simp), others notSecond,
    others fun member => apart member List.mem_cons_self]

theorem mem_addresses_insert {first second : List (UtHandle Key)} {handle : UtHandle Key}
    {old : Nat} : old ∈ addresses (first ++ handle :: second) ↔
      old = handle.address ∨ old ∈ addresses (first ++ second) := by
  rw [addresses, addresses, List.map_append, List.map_append, List.map_cons, List.mem_append,
    List.mem_append, List.mem_cons, or_left_comm]

section

variable {memory : UtMemory Key Value} {head : UtHash Key Value} {handle : UtHandle Key}
variable {address : Nat} {tbl : UtMemoryTable}

/-- What the pointers of an element in the middle of a list are. -/
theorem pointers_of_chained {links : Nat → Option (Pointers Nat)}
    {first second : List (UtHandle Key)}
    (chained : Chained links none none (addresses (first ++ handle :: second))) :
    links handle.address = some
      { prev := (addresses first).getLast?, next := (addresses second).head? } := by
  rw [addresses, List.map_append, chained_append, List.map_cons] at chained
  have there := chained.2.1
  rwa [Option.or_none, Option.or_none] at there

theorem delete_only (refines : Refines memory head) (only : head.handles = [handle]) :
    ∃ other, ((memory.delete handle.address).bind fun memory =>
        memory.free handle.address) = some other ∧ Refines other (head.delete handle) := by
  have present : head.elements ≠ [] := by
    intro absent
    rw [UtHash.handles, absent] at only
    cases only
  have member : handle ∈ head.handles := by rw [only]; exact List.mem_cons_self
  obtain ⟨address, tbl, hasTable⟩ := refines.table present
  obtain ⟨node, nodeEq, _⟩ := refines.listed.stored member
  have pointers := @pointers_of_chained _ handle memory.order [] []
    (by rw [List.nil_append, ← only]; exact refines.listed.order)
  simp only [UtMemory.order, nodeEq, Option.map_some, Option.some.injEq, Pointers.mk.injEq]
    at pointers
  have there : (memory.tables address).isSome := by
    rw [hasTable.tables, Function.update_self]
    rfl
  have gone : (head.delete handle).handles = [] := by
    rw [UtHash.handles_delete, only]
    simp
  have noElements : (head.delete handle).elements = [] := List.map_eq_nil_iff.mp gone
  have single : ∀ other, (memory.nodes other).isSome ↔ other = handle.address := by
    intro other
    rw [refines.listed.live]
    exact (by rw [only]; simp [addresses] :
      other ∈ addresses head.handles ↔ other = handle.address)
  refine ⟨{ memory with
    head := none
    nodes := Function.update memory.nodes handle.address none
    tables := Function.update memory.tables address none }, ?_, ?_⟩
  · have prevNull : node.hh.prev = none := pointers.1
    have nextNull : node.hh.next = none := pointers.2
    simp only [UtMemory.delete, nodeEq, refines.headTable hasTable present, prevNull, nextNull,
      and_self, if_true, freeTable, if_pos there, Option.bind_eq_bind, Option.bind_some, free,
      forget, Option.isSome_some]
  · refine ⟨refines.linked.delete member, refines.fresh, ?_, ?_, ?_⟩
    · rw [noElements]
      refine ⟨rfl, ?_, by simp, trivial⟩
      intro other
      by_cases isIt : other = handle.address
      · simp [isIt, addresses]
      · have dead : memory.nodes other = none := by
          rw [← Option.not_isSome_iff_eq_none, single]
          exact isIt
        simp [isIt, dead, addresses]
    · intro _
      simp only [hasTable.tables, Function.update_idem]
      exact Function.update_eq_self _ _
    · intro some
      exact absurd noElements some

theorem delInBkt_refines {table : UtTable Key} {handles : List (UtHandle Key)}
    (of : TableOf memory tbl table)
    (hold : BucketsHold table.log2NumBuckets table.buckets handles)
    (member : handle ∈ handles) (address : Nat) :
    ∃ other after,
      memory.delInBkt address tbl (utBucket handle.hashv table.log2NumBuckets) handle.address =
        some other ∧
      SameElements memory other ∧
      other.tables = Function.update memory.tables address (some after) ∧
      TableOf other after (table.deleteFromBucket handle) ∧
      after.numItems = tbl.numItems ∧ after.tail = tbl.tail := by
  obtain ⟨bucket, bucketAt, chainAt, chainOf⟩ := of.buckets.at_ (of.inside handle.hashv)
  have inChain := (hold.mem_chain_iff handle.hashv handle).mpr ⟨member, rfl⟩
  obtain ⟨first, second, split⟩ := List.append_of_mem inChain
  have links := chainOf.links
  rw [split] at links
  have chainNodup := links.nodup
  have pointers := pointers_of_chained links
  obtain ⟨node, nodeEq, pointersEq⟩ := Option.map_eq_some_iff.mp pointers
  rw [Pointers.mk.injEq] at pointersEq
  obtain ⟨hhPrevEq, hhNextEq⟩ := pointersEq
  have live {old : Nat} (inFirst : old ∈ addresses first ∨ old ∈ addresses second) :
      (memory.nodes old).isSome := by
    rw [← isSome_chain]
    refine links.isSome ?_
    rw [addresses, List.map_append, List.map_cons, List.mem_append, List.mem_cons]
    exact inFirst.imp id Or.inr
  let counted : UtMemoryBucket :=
    { bucket with
      count := bucket.count - 1
      hhHead := if bucket.hhHead = some handle.address then node.hh.hhNext
        else bucket.hhHead }
  let after : UtMemoryTable :=
    { tbl with buckets := tbl.buckets.set (utBucket handle.hashv table.log2NumBuckets) counted }
  let other := ((memory.putTable address after).modify node.hh.hhPrev
    ({ · with hhNext := node.hh.hhNext })).modify node.hh.hhNext
      ({ · with hhPrev := node.hh.hhPrev })
  have otherChain : other.chain = setPrev (setNext memory.chain (addresses first).getLast?
      (addresses second).head?) (addresses second).head? (addresses first).getLast? := by
    rw [← hhPrevEq, ← hhNextEq]
    simp only [other, chain_modify_hhPrev, chain_modify_hhNext]
    rfl
  have same : SameElements memory other := by
    refine (SameElements.putTable memory address after).trans (.trans (.modify ?_) (.modify ?_))
    · exact fun _ => ⟨rfl, rfl, rfl, rfl⟩
    · exact fun _ => ⟨rfl, rfl, rfl, rfl⟩
  have notFirst : handle.address ∉ addresses first := by
    rw [addresses, List.map_append, List.map_cons] at chainNodup
    exact fun inFirst => List.disjoint_of_nodup_append chainNodup inFirst List.mem_cons_self
  have left : (table.buckets.getD (utBucket handle.hashv table.log2NumBuckets) {}).chain.filter
      (·.address != handle.address) = first ++ second := by
    rw [split]
    exact filter_address_ne chainNodup
  have replaced : ChainOf other counted
      { table.buckets.getD (utBucket handle.hashv table.log2NumBuckets) {} with
        chain := first ++ second } := by
    refine ⟨?_, ?_, chainOf.expandMult, chainOf.room, ?_⟩
    · have isHead := chainOf.hhHead
      rw [split] at isHead
      simp only [counted, isHead, hhNextEq]
      cases first with
      | nil => simp [addresses]
      | cons front rest =>
          have frontNe : front.address ≠ handle.address := by
            rintro same
            exact notFirst (by simp [addresses, same])
          simp [addresses, frontNe]
    · have counts := chainOf.count
      have below := bucket.count.isLt
      rw [split, List.length_append, List.length_cons] at counts
      simp only [counted, List.length_append]
      bv_omega
    · rw [otherChain]
      have unlinked := @Chained.unlink _ _ _ none none (addresses first) (addresses second)
        handle.address (by simpa [addresses] using links) (by simpa [addresses] using chainNodup)
      simpa [addresses] using unlinked
  have buckets : BucketsOf other
      (tbl.buckets.set (utBucket handle.hashv table.log2NumBuckets) counted)
      (table.buckets.set (utBucket handle.hashv table.log2NumBuckets)
        { table.buckets.getD (utBucket handle.hashv table.log2NumBuckets) {} with
          chain := first ++ second }) := by
    apply of.buckets.set replaced
    intro position old different oldAt address inOld
    have apartFrom : address ∉ addresses (first ++ handle :: second) := by
      intro both
      rw [← split] at both
      exact different (of.buckets.apart position _ _ _ oldAt chainAt address inOld both)
    rw [addresses, List.map_append, List.map_cons, List.mem_append, List.mem_cons,
      not_or, not_or] at apartFrom
    obtain ⟨notInFirst, _, notInSecond⟩ := apartFrom
    constructor
    · rw [otherChain, setPrev_of_ne, setNext_of_ne]
      · rintro same
        exact notInFirst (List.mem_of_getLast? same)
      · rintro same
        exact notInSecond (mem_addresses_head same)
    · rw [addresses, List.map_append, List.mem_append, not_or]
      exact ⟨notInFirst, notInSecond⟩
  refine ⟨other, after, ?_, same, rfl, ?_, rfl, rfl⟩
  · simp only [delInBkt, nodeEq, bucketAt, Option.bind_eq_bind, Option.bind_some]
    rw [writeUnlessNull_eq, Option.bind_some, writeUnlessNull_eq]
    · intro old isNext
      rw [isSome_nodes_modify]
      exact live (Or.inr (mem_addresses_head (hhNextEq.symm.trans isNext)))
    · intro old isPrev
      exact live (Or.inl (List.mem_of_getLast? (hhPrevEq.symm.trans isPrev)))
  · have bucketsOf : BucketsOf other after.buckets (table.deleteFromBucket handle).buckets := by
      simp only [UtTable.deleteFromBucket, left]
      exact buckets
    exact { of with
      length := by simp [UtTable.deleteFromBucket, of.length]
      buckets := bucketsOf }

structure Deleting (memory : UtMemory Key Value) (head : UtHash Key Value)
    (first second : List (UtHandle Key)) (handle : UtHandle Key) (address : Nat)
    (tbl : UtMemoryTable) : Prop where
  refines : Refines memory head
  split : head.handles = first ++ handle :: second
  several : first ≠ [] ∨ second ≠ []
  hasTable : HasTable memory head address tbl

/-- The element is taken out of the order, while it is still in its bucket. -/
structure Unordered (memory other : UtMemory Key Value) (first second : List (UtHandle Key))
    (address : Nat) (tbl : UtMemoryTable) : Prop where
  head : other.head = (addresses (first ++ second)).head?
  fresh : other.fresh = memory.fresh
  order : other.order = setPrev (setNext memory.order (addresses first).getLast?
    (addresses second).head?) (addresses second).head? (addresses first).getLast?
  chain : other.chain = memory.chain
  content : other.content = memory.content
  tblOf : other.tblOf = memory.tblOf
  tables : other.tables = Function.update memory.tables address (some tbl)

namespace Deleting

variable {first second : List (UtHandle Key)}

theorem member (deleting : Deleting memory head first second handle address tbl) :
    handle ∈ head.handles := by
  simp [deleting.split]

theorem present (deleting : Deleting memory head first second handle address tbl) :
    head.elements ≠ [] := by
  intro absent
  have split := deleting.split
  rw [UtHash.handles, absent] at split
  simp at split

theorem ordered (deleting : Deleting memory head first second handle address tbl) :
    Chained memory.order none none (addresses (first ++ handle :: second)) := by
  rw [← deleting.split]
  exact deleting.refines.listed.order

theorem live (deleting : Deleting memory head first second handle address tbl) {old : Nat}
    (inside : old ∈ addresses (first ++ second)) : (memory.nodes old).isSome := by
  have inHandles : old ∈ addresses head.handles := by
    rw [deleting.split, mem_addresses_insert]
    exact Or.inr inside
  exact (deleting.refines.listed.live old).mpr inHandles

theorem apart (deleting : Deleting memory head first second handle address tbl) :
    handle.address ∉ addresses (first ++ second) := by
  have nodup := deleting.ordered.nodup
  rw [addresses, List.map_append, List.map_cons, List.nodup_append', List.nodup_cons] at nodup
  rw [addresses, List.map_append, List.mem_append, not_or]
  exact ⟨fun inFirst => nodup.2.2 inFirst List.mem_cons_self, nodup.2.1.1⟩

theorem front (deleting : Deleting memory head first second handle address tbl) :
    ∃ front, (addresses (first ++ second)).head? = some front ∧
      memory.tblOf front = some address := by
  cases split : first ++ second with
  | nil =>
      rw [List.append_eq_nil_iff] at split
      exact deleting.several.elim (fun some => absurd split.1 some)
        (fun some => absurd split.2 some)
  | cons front rest =>
      refine ⟨front.address, rfl, deleting.hasTable.tblOf _ ?_⟩
      rw [deleting.split, mem_addresses_insert, split]
      exact Or.inr List.mem_cons_self

theorem tail (deleting : Deleting memory head first second handle address tbl) :
    (if tbl.tail = some handle.address then (addresses first).getLast? else tbl.tail) =
      (addresses (first ++ second)).getLast? := by
  rw [deleting.hasTable.tail, deleting.split]
  rcases second.eq_nil_or_concat with rfl | ⟨rest, last, rfl⟩
  · simp [addresses]
  · have lastNe : last.address ≠ handle.address := by
      intro same
      apply deleting.apart
      simp [addresses, ← same]
    simp [addresses, lastNe, List.getLast?_cons]

theorem unorder (deleting : Deleting memory head first second handle address tbl) :
    ∃ middle, memory.delete handle.address = middle.dropItem handle.hashv handle.address ∧
      Unordered memory middle first second address
        { tbl with tail := (addresses (first ++ second)).getLast? } := by
  obtain ⟨node, nodeEq, _, hashvEq⟩ := deleting.refines.listed.stored deleting.member
  have pointers := pointers_of_chained deleting.ordered
  simp only [UtMemory.order, nodeEq, Option.map_some, Option.some.injEq, Pointers.mk.injEq]
    at pointers
  obtain ⟨prevEq, nextEq⟩ := pointers
  let linked := (memory.putTable address
    { tbl with tail := (addresses (first ++ second)).getLast? }).modify node.hh.prev
      ({ · with next := node.hh.next })
  let middle : UtMemory Key Value :=
    ({ linked with head := if node.hh.prev = none then node.hh.next else memory.head } :
      UtMemory Key Value).modify node.hh.next ({ · with prev := node.hh.prev })
  refine ⟨middle, ?_, ?_⟩
  · have notOnly : ¬(node.hh.prev = none ∧ node.hh.next = none) := by
      rintro ⟨noPrev, noNext⟩
      rw [prevEq, List.getLast?_eq_none_iff, addresses, List.map_eq_nil_iff] at noPrev
      rw [nextEq, List.head?_eq_none_iff, addresses, List.map_eq_nil_iff] at noNext
      exact deleting.several.elim (fun some => some noPrev) (fun some => some noNext)
    have chosen (base : UtMemory Key Value) (sameHead : base.head = memory.head) :
        (if node.hh.prev = none then { base with head := node.hh.next } else base) =
          { base with
            head := if node.hh.prev = none then node.hh.next else memory.head } := by
      split
      · rfl
      · rw [← sameHead]
    have prevLive : ∀ old, node.hh.prev = some old → (memory.nodes old).isSome := by
      intro old isPrev
      rw [prevEq] at isPrev
      apply deleting.live
      rw [addresses, List.map_append, List.mem_append]
      exact Or.inl (List.mem_of_getLast? isPrev)
    have nextLive : ∀ old, node.hh.next = some old → (memory.nodes old).isSome := by
      intro old isNext
      rw [nextEq] at isNext
      apply deleting.live
      rw [addresses, List.map_append, List.mem_append]
      exact Or.inr (mem_addresses_head isNext)
    have tail := deleting.tail
    rw [← prevEq] at tail
    simp only [UtMemory.delete, nodeEq,
      deleting.refines.headTable deleting.hasTable deleting.present, if_neg notOnly,
      Option.bind_eq_bind, Option.bind_some, tail]
    rw [writeUnlessNull_eq, Option.bind_some, chosen, writeUnlessNull_eq, Option.bind_some,
      hashvEq]
    · intro old isNext
      rw [isSome_nodes_modify]
      exact nextLive old isNext
    · rfl
    · exact prevLive
  · constructor
    · have isHead := deleting.refines.listed.head
      rw [← UtHash.handles, deleting.split] at isHead
      simp only [middle, head_modify, isHead, prevEq, nextEq]
      cases first <;> simp [addresses, List.getLast?_cons]
    · rfl
    · rw [← prevEq, ← nextEq]
      exact (order_modify_prev _ _).trans (congrArg (setPrev · _ _) (order_modify_next _ _))
    · have ordered : middle.chain = linked.chain := chain_modify fun _ => ⟨rfl, rfl⟩
      exact ordered.trans (chain_modify fun _ => ⟨rfl, rfl⟩)
    · have ordered : middle.content = linked.content := content_modify fun _ => rfl
      exact ordered.trans (content_modify fun _ => rfl)
    · have ordered : middle.tblOf = linked.tblOf := tblOf_modify fun _ => rfl
      exact ordered.trans (tblOf_modify fun _ => rfl)
    · rfl

theorem dropItem {middle : UtMemory Key Value}
    (deleting : Deleting memory head first second handle address tbl)
    (unordered : Unordered memory middle first second address
      { tbl with tail := (addresses (first ++ second)).getLast? }) :
    ∃ last after, middle.dropItem handle.hashv handle.address = some last ∧
      SameElements middle last ∧
      last.tables = Function.update memory.tables address (some after) ∧
      TableOf last after (head.table.deleteFromBucket handle) ∧
      after.numItems = tbl.numItems - 1 ∧
      after.tail = (addresses (first ++ second)).getLast? := by
  have ofMiddle : TableOf middle { tbl with tail := (addresses (first ++ second)).getLast? }
      head.table := by
    refine { deleting.hasTable.of.congr fun _ _ old _ => ?_ with }
    exact congrFun unordered.chain old
  obtain ⟨other, after, bucketed, same, tables, ofOther, items, lastTail⟩ :=
    delInBkt_refines ofMiddle (deleting.refines.linked.table deleting.present) deleting.member
      address
  obtain ⟨front, isFront, owner⟩ := deleting.front
  have headTable : middle.headTable =
      some (address, { tbl with tail := (addresses (first ++ second)).getLast? }) := by
    refine headTable_eq (unordered.head.trans isFront) ?_ ?_
    · rw [unordered.tblOf, owner]
    · rw [unordered.tables, Function.update_self]
  have otherTable : other.headTable = some (address, after) := by
    refine headTable_eq ((same.head.trans unordered.head).trans isFront) ?_ ?_
    · rw [same.tblOf, unordered.tblOf, owner]
    · rw [tables, Function.update_self]
  refine ⟨other.putTable address { after with numItems := after.numItems - 1 },
    { after with numItems := after.numItems - 1 }, ?_, same.trans (.putTable _ _ _), ?_, ?_,
    congrArg (· - 1) items, lastTail⟩
  · have bktEq := hashToBkt_eq deleting.hasTable.of.numBuckets handle.hashv
    rw [UtMemory.dropItem, headTable, Option.bind_eq_bind, Option.bind_some]
    simp only [bktEq, bucketed, Option.bind_eq_bind, Option.bind_some, otherTable]
  · rw [putTable, tables, unordered.tables, Function.update_idem, Function.update_idem]
  · exact { ofOther with buckets := ofOther.buckets.congr fun _ _ _ _ => rfl }

theorem nodes_forget_of_ne {last : UtMemory Key Value} {old : Nat}
    (other : old ≠ handle.address) : (last.forget handle.address).nodes old = last.nodes old :=
  Function.update_of_ne other _ _

theorem delete (deleting : Deleting memory head first second handle address tbl) :
    ∃ other, ((memory.delete handle.address).bind fun memory =>
        memory.free handle.address) = some other ∧ Refines other (head.delete handle) := by
  obtain ⟨middle, deleteEq, unordered⟩ := deleting.unorder
  obtain ⟨last, after, dropped, same, tables, ofLast, items, tail⟩ := deleting.dropItem unordered
  have refines := deleting.refines
  have remaining : (head.delete handle).elements.map UtElement.toUtHandle = first ++ second := by
    have handlesEq := @UtHash.handles_delete _ _ head handle
    rw [deleting.split, filter_address_ne deleting.ordered.nodup] at handlesEq
    exact handlesEq
  have oldNe {old : Nat} (inside : old ∈ addresses (first ++ second)) : old ≠ handle.address := by
    rintro rfl
    exact deleting.apart inside
  have isSome (old : Nat) : (last.nodes old).isSome = (memory.nodes old).isSome := by
    rw [same.isSome_nodes, ← isSome_chain, unordered.chain, isSome_chain]
  have lastLive : (last.nodes handle.address).isSome := by
    rw [isSome, refines.listed.live]
    exact List.mem_map_of_mem deleting.member
  refine ⟨last.forget handle.address, ?_, ?_⟩
  · rw [deleteEq, dropped, Option.bind_some]
    exact if_pos lastLive
  refine ⟨refines.linked.delete deleting.member, ?_, ?_, ?_, ?_⟩
  · exact (same.fresh.trans unordered.fresh).trans refines.fresh
  · constructor
    · rw [remaining]
      exact same.head.trans unordered.head
    · intro old
      rw [remaining]
      by_cases isIt : old = handle.address
      · simp [isIt, forget, deleting.apart]
      · have inHandles : (memory.nodes old).isSome ↔ old ∈ addresses head.handles :=
          refines.listed.live old
        rw [deleting.split, mem_addresses_insert] at inHandles
        rw [nodes_forget_of_ne isIt, isSome, inHandles]
        exact or_iff_right isIt
    · intro element inElements
      have inside : element.address ∈ addresses (first ++ second) := by
        rw [← remaining]
        exact List.mem_map_of_mem (List.mem_map_of_mem inElements)
      rw [← refines.listed.content element (List.mem_filter.mp inElements).1,
        ← unordered.content, ← same.content, UtMemory.content,
        nodes_forget_of_ne (oldNe inside)]
      rfl
    · rw [remaining, addresses, List.map_append]
      have unlinked := @Chained.unlink _ _ _ none none (addresses first) (addresses second)
        handle.address (by simpa [addresses] using deleting.ordered)
        (by simpa [addresses] using deleting.ordered.nodup)
      rw [Option.or_none, Option.or_none, ← unordered.order, ← same.order] at unlinked
      refine unlinked.congr fun old inside => ?_
      rw [UtMemory.order, nodes_forget_of_ne (oldNe (by simpa [addresses] using inside))]
      rfl
  · intro none
    obtain ⟨front, isFront, _⟩ := deleting.front
    rw [← remaining, none] at isFront
    cases isFront
  · intro _
    refine ⟨address, after, ?_, ?_, ?_, ?_, ?_⟩
    · exact tables.trans (by rw [deleting.hasTable.tables, Function.update_idem])
    · intro old inside
      rw [UtHash.handles, remaining] at inside
      have owner := deleting.hasTable.tblOf old (by
        rw [deleting.split, mem_addresses_insert]
        exact Or.inr inside)
      rw [← unordered.tblOf, ← same.tblOf] at owner
      rw [UtMemory.tblOf, nodes_forget_of_ne (oldNe inside)]
      exact owner
    · rw [tail, UtHash.handles, remaining]
    · have before := congrArg List.length deleting.split
      have left := congrArg List.length remaining
      have counted := deleting.hasTable.numItems
      have below := tbl.numItems.isLt
      rw [UtHash.handles, List.length_map, List.length_append, List.length_cons] at before
      rw [List.length_map, List.length_append] at left
      rw [items]
      bv_omega
    · have several : head.elements.length ≠ 1 := by
        intro one
        have before := congrArg List.length deleting.split
        rw [UtHash.handles, List.length_map, List.length_append, List.length_cons, one] at before
        refine deleting.several.elim (fun some => some ?_) (fun some => some ?_)
        · exact List.eq_nil_of_length_eq_zero (by omega)
        · exact List.eq_nil_of_length_eq_zero (by omega)
      have tableEq : (head.delete handle).table = head.table.deleteFromBucket handle :=
        if_neg several
      rw [tableEq]
      refine ofLast.congr fun chain member old inChain => ?_
      have hold := UtTable.deleteFromBucket_holds (refines.linked.table deleting.present)
        fun other otherIn same => refines.linked.eq_of_address otherIn deleting.member same
      obtain ⟨index, chainAt⟩ := List.getElem?_of_mem member
      obtain ⟨other, otherIn, rfl⟩ := List.mem_map.mp inChain
      have kept := ((hold.chains index chain other chainAt).mp otherIn).1
      rw [UtMemory.chain, nodes_forget_of_ne (by simpa using (List.mem_filter.mp kept).2)]
      rfl

end Deleting

/-- Deleting an element and freeing it works on the memory as it does on the list. -/
theorem delete_refines (refines : Refines memory head) (member : handle ∈ head.handles) :
    ∃ other, ((memory.delete handle.address).bind fun memory =>
        memory.free handle.address) = some other ∧ Refines other (head.delete handle) := by
  obtain ⟨first, second, split⟩ := List.append_of_mem member
  by_cases several : first ≠ [] ∨ second ≠ []
  · have present : head.elements ≠ [] := by
      intro absent
      rw [UtHash.handles, absent] at member
      cases member
    obtain ⟨address, tbl, hasTable⟩ := refines.table present
    exact Deleting.delete ⟨refines, split, several, hasTable⟩
  · rw [not_or, not_not, not_not] at several
    rw [several.1, several.2] at split
    exact delete_only refines split

end

end UtMemory

end PhpDriver.Data
