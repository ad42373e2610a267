import PhpDriver.Data.UthashRefines

namespace PhpDriver.Data

namespace UtMemory

variable {memory : UtMemory Key Value} {head : UtHash Key Value}
variable {hash : Key → Option (BitVec 32)} {compare : Key → Key → Option Int} {key : Key}

/-- The search along the pointers of a chain is the search along the chain. -/
theorem findInBkt_eq {handles : List (UtHandle Key)} {before : Option Nat} {fuel : Nat}
    (links : Chained memory.chain none before (addresses handles))
    (stored : ∀ handle ∈ handles, ∃ node, memory.nodes handle.address = some node ∧
      node.key = handle.key) (enough : handles.length ≤ fuel) :
    findInBkt compare memory key fuel (addresses handles).head? =
      (UtHash.findInBucket compare key handles).map (·.map UtHandle.address) := by
  induction handles generalizing before fuel with
  | nil => cases fuel <;> rfl
  | cons handle handles ih =>
      obtain ⟨fuel, rfl⟩ : ∃ rest, fuel = rest + 1 :=
        ⟨fuel - 1, by rw [List.length_cons] at enough; omega⟩
      obtain ⟨node, nodeEq, keyEq⟩ := stored handle List.mem_cons_self
      have rest := ih links.2 (fun other member => stored other (List.mem_cons_of_mem _ member))
        (Nat.le_of_succ_le_succ enough)
      rw [addresses, List.map_cons, List.head?_cons, findInBkt, nodeEq, UtHash.findInBucket,
        Option.bind_eq_bind, Option.bind_some, keyEq, chain_next links nodeEq]
      cases compare handle.key key with
      | none => rfl
      | some order =>
          simp only [Option.bind_eq_bind, Option.bind_some]
          split
          · rfl
          · exact rest

theorem Refines.find (refines : Refines memory head) :
    memory.find hash compare key =
      (head.find hash compare key).map (·.map UtHandle.address) := by
  cases elements : head.elements with
  | nil =>
      rw [UtMemory.find, refines.head_nil elements, UtHash.find, elements]
      rfl
  | cons first rest =>
      have present : head.elements ≠ [] := by simp [elements]
      obtain ⟨address, tbl, hasTable⟩ := refines.table present
      have hold := refines.linked.table present
      rw [UtMemory.find, refines.head_cons elements, UtHash.find, elements, List.isEmpty_cons]
      simp only [Bool.false_eq_true, if_false, refines.headTable hasTable present]
      cases hash key with
      | none => rfl
      | some hashv =>
          obtain ⟨bucket, bucketAt, _, chainOf⟩ :=
            hasTable.of.buckets.at_ (hasTable.of.inside hashv)
          simp only [Option.bind_eq_bind, Option.bind_some,
            hashToBkt_eq hasTable.of.numBuckets, bucketAt, chainOf.hhHead]
          have inHandles {handle : UtHandle Key} (member : handle ∈ (head.table.buckets.getD
              (utBucket hashv head.table.log2NumBuckets) {}).chain) : handle ∈ head.handles :=
            ((hold.mem_chain_iff hashv handle).mp member).1
          refine findInBkt_eq chainOf.links ?_ ?_
          · intro handle member
            obtain ⟨node, nodeEq, keyEq, _⟩ := refines.listed.stored (inHandles member)
            exact ⟨node, nodeEq, keyEq⟩
          · have fewer := (List.subperm_of_subset (chainOf.links.nodup.of_map _)
              fun handle member => inHandles member).length_le
            rw [UtHash.handles, List.length_map] at fewer
            rw [refines.fresh]
            exact fewer.trans (length_le_fresh refines.linked)

theorem Refines.count (refines : Refines memory head) : memory.count = some head.count := by
  cases elements : head.elements with
  | nil =>
      rw [UtMemory.count, refines.head_nil elements, UtHash.count, elements]
      rfl
  | cons first rest =>
      have present : head.elements ≠ [] := by simp [elements]
      obtain ⟨address, tbl, hasTable⟩ := refines.table present
      rw [UtMemory.count, refines.head_cons elements]
      simp only [refines.headTable hasTable present, Option.map_some, UtHash.count]
      rw [← hasTable.numItems, BitVec.ofNat_toNat, BitVec.setWidth_eq]

/-! `HASH_FSCK` finds nothing to complain about. -/

theorem fsckList_eq {links : Nat → Option (Pointers Nat)} {before : Option Nat}
    {list : List Nat} {fuel : Nat} {count : BitVec 32}
    (chained : Chained links none before list) (enough : list.length ≤ fuel) :
    fsckList links fuel before list.head? count = some (count + BitVec.ofNat 32 list.length) := by
  induction list generalizing before fuel count with
  | nil => cases fuel <;> simp [fsckList]
  | cons address list ih =>
      obtain ⟨fuel, rfl⟩ : ∃ rest, fuel = rest + 1 :=
        ⟨fuel - 1, by rw [List.length_cons] at enough; omega⟩
      rw [List.head?_cons, fsckList, chained.1, Option.bind_eq_bind, Option.bind_some,
        if_pos rfl, Option.or_none, ih chained.2 (Nat.le_of_succ_le_succ enough)]
      congr 1
      rw [List.length_cons, BitVec.add_assoc, Nat.add_comm list.length 1, BitVec.ofNat_add]
      rfl

theorem count_zero_add (count : BitVec 32) : 0 + count = count :=
  BitVec.zero_add count

theorem fsckBuckets_eq {buckets : List UtMemoryBucket} {chains : List (UtBucket Key)}
    {fuel : Nat} {count : BitVec 32} (chainOf : List.Forall₂ (ChainOf memory) buckets chains)
    (enough : ∀ chain ∈ chains, chain.chain.length ≤ fuel) :
    buckets.foldlM (fun count (bucket : UtMemoryBucket) =>
        (fsckList memory.chain fuel none bucket.hhHead 0).bind fun bktCount =>
          if bucket.count = bktCount then some (count + bktCount) else none) count =
      some (count + BitVec.ofNat 32 (chains.flatMap UtBucket.chain).length) := by
  induction chainOf generalizing count with
  | nil => simp
  | @cons bucket chain buckets chains of rest ih =>
      have walked := @fsckList_eq _ none (addresses chain.chain) fuel 0 of.links
        (by simpa [addresses] using enough chain List.mem_cons_self)
      have counted : bucket.count = BitVec.ofNat 32 chain.chain.length := by
        rw [← of.count, BitVec.ofNat_toNat, BitVec.setWidth_eq]
      rw [count_zero_add, addresses, List.length_map, ← addresses, ← counted] at walked
      rw [List.foldlM_cons, of.hhHead, walked, Option.bind_some, if_pos rfl, Option.bind_eq_bind,
        Option.bind_some, ih fun other member => enough other (List.mem_cons_of_mem _ member),
        List.flatMap_cons, List.length_append, BitVec.ofNat_add, ← BitVec.add_assoc, counted]

theorem Refines.fsck (refines : Refines memory head) : memory.fsck = some () := by
  cases elements : head.elements with
  | nil => rw [UtMemory.fsck, refines.head_nil elements]
  | cons first rest =>
      have present : head.elements ≠ [] := by simp [elements]
      obtain ⟨address, tbl, hasTable⟩ := refines.table present
      have hold := refines.linked.table present
      have perm := hasTable.of.buckets.perm hold (refines.linked.nodup.of_map _)
      have fewer : head.elements.length ≤ memory.fresh := by
        rw [refines.fresh]
        exact length_le_fresh refines.linked
      have total : (head.table.buckets.flatMap UtBucket.chain).length = head.elements.length := by
        rw [perm.length_eq, UtHash.handles, List.length_map]
      have enough : ∀ chain ∈ head.table.buckets, chain.chain.length ≤ memory.fresh := by
        intro chain member
        refine le_trans ?_ (total.le.trans fewer)
        rw [List.flatMap_def]
        exact (List.sublist_flatten_of_mem (List.mem_map_of_mem member)).length_le
      have items : tbl.numItems = BitVec.ofNat 32 head.elements.length := by
        rw [← hasTable.numItems, BitVec.ofNat_toNat, BitVec.setWidth_eq]
      have length : tbl.numBuckets.toNat = tbl.buckets.length := by
        rw [hasTable.of.numBuckets, hasTable.of.buckets.length, hasTable.of.length]
      have inBuckets : (List.range tbl.numBuckets.toNat).foldlM
          (fun count bktI => (tbl.buckets[bktI]?).bind fun bucket =>
            (fsckList memory.chain memory.fresh none bucket.hhHead 0).bind fun bktCount =>
              if bucket.count = bktCount then some (count + bktCount) else none)
          (0 : BitVec 32) = some tbl.numItems := by
        rw [length, foldlM_range_getElem?, fsckBuckets_eq hasTable.of.buckets.forall₂ enough,
          count_zero_add, total, items]
      have inOrder : fsckList memory.order memory.fresh none (some first.address) 0 =
          some tbl.numItems := by
        have walked := @fsckList_eq _ none _ memory.fresh 0 refines.listed.order
          (by simpa [addresses] using fewer)
        rw [count_zero_add, addresses, List.length_map, List.length_map, ← items, elements]
          at walked
        exact walked
      rw [UtMemory.fsck, refines.head_cons elements]
      simp only [refines.headTable hasTable present, Option.bind_eq_bind, Option.bind_some,
        inBuckets, inOrder, and_self, if_true]

end UtMemory

end PhpDriver.Data
