import Mathlib.Data.List.Forall2
import PhpDriver.Data.UthashChains

namespace PhpDriver.Data

namespace UtMemory

/-! The arithmetic of `HASH_TO_BKT` and `HASH_EXPAND_BUCKETS`. -/

theorem hashToBkt_eq {numBkts : BitVec 32} {log2NumBuckets : Nat}
    (power : numBkts.toNat = 2 ^ log2NumBuckets) (hashv : BitVec 32) :
    hashToBkt hashv numBkts = utBucket hashv log2NumBuckets := by
  have positive := Nat.two_pow_pos log2NumBuckets
  have below := numBkts.isLt
  have mask : (numBkts - 1).toNat = 2 ^ log2NumBuckets - 1 := by
    rw [← power]
    rw [← power] at positive
    bv_omega
  rw [hashToBkt, BitVec.toNat_and, mask, Nat.and_two_pow_sub_one_eq_mod, utBucket]

theorem toNat_doubled {numBuckets : BitVec 32} {log2NumBuckets : Nat}
    (power : numBuckets.toNat = 2 ^ log2NumBuckets) (small : log2NumBuckets + 1 < 32) :
    (numBuckets * 2).toNat = 2 ^ (log2NumBuckets + 1) := by
  have below : 2 ^ (log2NumBuckets + 1) < 2 ^ 32 := Nat.pow_lt_pow_right (by omega) small
  rw [BitVec.toNat_mul, power]
  rw [Nat.pow_succ] at below ⊢
  exact Nat.mod_eq_of_lt below

def utIdealChainMaxlen (numItems log2NumBuckets : Nat) : Nat :=
  numItems / 2 ^ log2NumBuckets + if numItems % 2 ^ log2NumBuckets ≠ 0 then 1 else 0

theorem utIdealChainMaxlen_pos {numItems : Nat} (items : 0 < numItems) (log2NumBuckets : Nat) :
    0 < utIdealChainMaxlen numItems log2NumBuckets := by
  rw [utIdealChainMaxlen]
  split
  · exact Nat.succ_pos _
  · rename_i divides
    rw [not_not] at divides
    have := Nat.div_add_mod numItems (2 ^ log2NumBuckets)
    rw [divides, Nat.add_zero] at this
    rcases Nat.eq_zero_or_pos (numItems / 2 ^ log2NumBuckets) with zero | positive
    · rw [zero, Nat.mul_zero] at this
      omega
    · omega

theorem toNat_log2_succ {log2NumBuckets : BitVec 32} {log2 : Nat}
    (log2Eq : log2NumBuckets.toNat = log2) (small : log2 + 1 < 32) :
    (log2NumBuckets + 1).toNat = log2 + 1 := by
  rw [BitVec.toNat_add, log2Eq]
  simp only [BitVec.reduceToNat]
  omega

theorem toNat_idealChainMaxlen {tbl : UtMemoryTable} {log2 : Nat}
    (power : tbl.numBuckets.toNat = 2 ^ log2) (log2Eq : tbl.log2NumBuckets.toNat = log2)
    (small : log2 + 1 < 32) :
    (idealChainMaxlen tbl).toNat = utIdealChainMaxlen tbl.numItems.toNat (log2 + 1) := by
  have doubled := toNat_doubled power small
  have rest : (tbl.numItems &&& (tbl.numBuckets * 2 - 1)).toNat =
      tbl.numItems.toNat % 2 ^ (log2 + 1) :=
    hashToBkt_eq doubled tbl.numItems
  have zero : tbl.numItems &&& (tbl.numBuckets * 2 - 1) ≠ 0 ↔
      tbl.numItems.toNat % 2 ^ (log2 + 1) ≠ 0 := by
    rw [← rest, ne_eq, ne_eq, ← BitVec.toNat_inj]
    rfl
  have half : tbl.numItems.toNat / 2 ^ (log2 + 1) ≤ tbl.numItems.toNat / 2 :=
    Nat.div_le_div_left (Nat.le_self_pow (by omega) 2) (by omega)
  have below := tbl.numItems.isLt
  rw [idealChainMaxlen, BitVec.toNat_add, utIdealChainMaxlen, BitVec.ushiftRight_eq',
    BitVec.toNat_ushiftRight, toNat_log2_succ log2Eq small, Nat.shiftRight_eq_div_pow]
  simp only [zero]
  generalize tbl.numItems.toNat / 2 ^ (log2 + 1) = quotient at half
  split
  · simp only [BitVec.reduceToNat]
    omega
  · simp only [BitVec.reduceToNat]
    omega

/-! One handle after the other moves to its new bucket. -/

section

/-- The handles that still have to be moved, while the others are in the new buckets. -/
structure Spreads (log2NumBuckets bound : Nat) (expansion : Expansion Key Value)
    (made : List (UtBucket Key) × Nat) (remaining : List (UtHandle Key)) : Prop where
  buckets : BucketsOf expansion.memory expansion.newBuckets made.1
  length : made.1.length = 2 ^ log2NumBuckets
  nonideal : expansion.nonidealItems.toNat = made.2
  nonidealRoom : made.2 + remaining.length ≤ bound
  room : ∀ chain ∈ made.1, chain.chain.length + remaining.length ≤ bound
  outside : ∀ handle ∈ remaining, ∀ chain ∈ made.1, handle.address ∉ addresses chain.chain
  nodup : (addresses remaining).Nodup
  stored : ∀ handle ∈ remaining, ∃ node,
    expansion.memory.nodes handle.address = some node ∧ node.hh.hashv = handle.hashv

/-- One memory follows from another while handles move: what has not moved stays linked. -/
structure Moves (memory other : UtMemory Key Value) (remaining : List (UtHandle Key)) : Prop where
  same : SameElements memory other
  tables : other.tables = memory.tables
  kept : ∀ handle ∈ remaining, other.chain handle.address = memory.chain handle.address

theorem Moves.trans {first second third : UtMemory Key Value}
    {more remaining : List (UtHandle Key)} (start : Moves first second more)
    (moves : Moves second third remaining) (included : remaining ⊆ more) :
    Moves first third remaining where
  same := start.same.trans moves.same
  tables := moves.tables.trans start.tables
  kept handle member := by
    rw [moves.kept handle member, start.kept handle (included member)]

theorem mem_chain_push {chains : List (UtBucket Key)} {index : Nat} {handle : UtHandle Key}
    {expandMult : Nat} {chain : UtBucket Key}
    (member : chain ∈ chains.set index
      { chain := handle :: (chains.getD index {}).chain, expandMult }) :
    chain ∈ chains ∨ chain.chain = handle :: (chains.getD index {}).chain := by
  rcases List.mem_or_eq_of_mem_set member with old | rfl
  · exact Or.inl old
  · exact Or.inr rfl

variable {log2 bound : Nat} {expansion : Expansion Key Value}
variable {made : List (UtBucket Key) × Nat} {handle : UtHandle Key}
variable {remaining : List (UtHandle Key)} {idealChainMaxlen numBuckets : BitVec 32}

theorem utRedistribute_eq (log2NumBuckets ideal : Nat) (made : List (UtBucket Key) × Nat)
    (handle : UtHandle Key) :
    utRedistribute log2NumBuckets ideal made handle =
      let index := utBucket handle.hashv log2NumBuckets
      let bucket := made.1.getD index {}
      let count := bucket.chain.length + 1
      (made.1.set index
        { chain := handle :: bucket.chain,
          expandMult := if ideal < count then count / ideal else bucket.expandMult },
        if ideal < count then made.2 + 1 else made.2) := by
  simp only [utRedistribute]
  split <;> rfl

/-- The count of a bucket and its multiplier, for one more handle in its chain. -/
theorem countInBucket_eq {memory : UtMemory Key Value} {nonidealItems : BitVec 32}
    {newbkt : UtMemoryBucket} {chain : UtBucket Key} {nonideal : Nat}
    (ideal : 0 < idealChainMaxlen.toNat) (chainOf : ChainOf memory newbkt chain)
    (nonidealEq : nonidealItems.toNat = nonideal) (chainRoom : chain.chain.length + 1 ≤ bound)
    (nonidealRoom : nonideal + 1 ≤ bound)
    (boundRoom : utCapacityThresh * (bound + 1) < 2 ^ 32) :
    ∃ counted bucket, countInBucket idealChainMaxlen nonidealItems newbkt =
        some (counted, bucket) ∧
      counted.toNat = (if idealChainMaxlen.toNat < chain.chain.length + 1 then nonideal + 1
        else nonideal) ∧
      bucket.count.toNat = chain.chain.length + 1 ∧
      bucket.expandMult.toNat = (if idealChainMaxlen.toNat < chain.chain.length + 1 then
        (chain.chain.length + 1) / idealChainMaxlen.toNat else chain.expandMult) ∧
      utCapacityThresh * (bucket.expandMult.toNat + 1) < 2 ^ 32 := by
  have small := boundRoom
  rw [utCapacityThresh] at small
  have countEq : (newbkt.count + 1).toNat = chain.chain.length + 1 := by
    rw [BitVec.toNat_add, chainOf.count]
    simp only [BitVec.reduceToNat]
    omega
  have idealNe : idealChainMaxlen ≠ 0 := by
    rintro rfl
    exact Nat.lt_irrefl 0 ideal
  simp only [countInBucket, BitVec.lt_def, countEq, if_neg idealNe]
  split
  · refine ⟨_, _, rfl, ?_, countEq, ?_, ?_⟩
    · rw [BitVec.toNat_add, nonidealEq]
      simp only [BitVec.reduceToNat]
      omega
    · rw [BitVec.toNat_udiv, countEq]
    · rw [BitVec.toNat_udiv, countEq, utCapacityThresh]
      have := Nat.div_le_self (chain.chain.length + 1) idealChainMaxlen.toNat
      omega
  · refine ⟨_, _, rfl, nonidealEq, countEq, chainOf.expandMult, ?_⟩
    rw [chainOf.expandMult]
    exact chainOf.room

theorem Spreads.move (spreads : Spreads (log2 + 1) bound expansion made (handle :: remaining))
    (power : numBuckets.toNat = 2 ^ log2) (small : log2 + 1 < 32)
    (ideal : 0 < idealChainMaxlen.toNat)
    (boundRoom : utCapacityThresh * (bound + 1) < 2 ^ 32) :
    ∃ moved, moveToNewBucket idealChainMaxlen numBuckets handle.address expansion = some moved ∧
      Moves expansion.memory moved.memory remaining ∧
      Spreads (log2 + 1) bound moved
        (utRedistribute (log2 + 1) idealChainMaxlen.toNat made handle) remaining := by
  obtain ⟨node, nodeEq, hashed⟩ := spreads.stored handle List.mem_cons_self
  have bktEq : hashToBkt node.hh.hashv (numBuckets * 2) = utBucket handle.hashv (log2 + 1) := by
    rw [hashToBkt_eq (toNat_doubled power small), hashed]
  have inside : utBucket handle.hashv (log2 + 1) < made.1.length := by
    rw [spreads.length]
    exact utBucket_lt _ _
  obtain ⟨newbkt, newbktAt, chainAt, chainOf⟩ := spreads.buckets.at_ inside
  have outside := spreads.outside handle List.mem_cons_self
  have chainMember := List.mem_of_getElem? chainAt
  have chainRoom := spreads.room _ chainMember
  have nonidealRoom := spreads.nonidealRoom
  rw [List.length_cons] at chainRoom nonidealRoom
  rw [utCapacityThresh] at boundRoom
  have live : (expansion.memory.nodes handle.address).isSome := by
    rw [nodeEq]
    rfl
  have headLive : ∀ address, newbkt.hhHead = some address →
      (expansion.memory.nodes address).isSome := by
    intro address isHead
    rw [chainOf.hhHead] at isHead
    rw [← isSome_chain]
    exact chainOf.links.isSome (mem_addresses_head isHead)
  obtain ⟨nonideal, counted, chosen, nonidealEq, countEq, multEq, multRoom⟩ :=
    countInBucket_eq ideal chainOf spreads.nonideal (by omega) (by omega) boundRoom
  have linked := linkFront_eq live headLive
  refine ⟨⟨expansion.memory.linkFront newbkt.hhHead handle.address,
    expansion.newBuckets.set (utBucket handle.hashv (log2 + 1))
      { counted with hhHead := some handle.address },
    nonideal⟩, ?_, ?_, ?_⟩
  · simp only [moveToNewBucket, nodeEq, Option.bind_eq_bind, Option.bind_some, bktEq, newbktAt,
      chosen]
    rw [← Option.bind_assoc, linked]
    rfl
  · refine ⟨sameElements_linkFront _ _ _, rfl, ?_⟩
    intro other member
    have differs : other.address ≠ handle.address := by
      intro same
      apply (List.nodup_cons.mp spreads.nodup).1
      rw [← same]
      exact List.mem_map_of_mem member
    rw [chain_linkFront_of_ne differs]
    apply setPrev_of_ne
    rw [chainOf.hhHead]
    intro same
    exact spreads.outside other (List.mem_cons_of_mem _ member) _ chainMember
      (mem_addresses_head same)
  · rw [utRedistribute_eq]
    have pushed := spreads.buckets.push newbktAt live outside countEq multEq
      (by rw [← multEq]; exact multRoom)
    refine ⟨pushed, ?_, nonidealEq, ?_, ?_, ?_, (List.nodup_cons.mp spreads.nodup).2, ?_⟩
    · rw [List.length_set, spreads.length]
    · simp only
      split <;> omega
    · intro chain member
      rcases mem_chain_push member with old | new
      · have := spreads.room chain old
        rw [List.length_cons] at this
        omega
      · rw [new, List.length_cons]
        omega
    · intro other otherIn chain member
      rcases mem_chain_push member with old | new
      · exact spreads.outside other (List.mem_cons_of_mem _ otherIn) chain old
      · rw [new, addresses, List.map_cons, List.mem_cons, not_or]
        refine ⟨?_, spreads.outside other (List.mem_cons_of_mem _ otherIn) _ chainMember⟩
        intro same
        apply (List.nodup_cons.mp spreads.nodup).1
        rw [← same]
        exact List.mem_map_of_mem otherIn
    · intro other otherIn
      exact (sameElements_linkFront expansion.memory newbkt.hhHead handle.address).stored
        (spreads.stored other (List.mem_cons_of_mem _ otherIn))

theorem Spreads.redistribute {handles later : List (UtHandle Key)} {before : Option Nat}
    {fuel : Nat} (spreads : Spreads (log2 + 1) bound expansion made (handles ++ later))
    (links : Chained expansion.memory.chain none before (addresses handles))
    (enough : handles.length ≤ fuel) (power : numBuckets.toNat = 2 ^ log2)
    (small : log2 + 1 < 32) (ideal : 0 < idealChainMaxlen.toNat)
    (boundRoom : utCapacityThresh * (bound + 1) < 2 ^ 32) :
    ∃ moved, redistribute idealChainMaxlen numBuckets fuel (addresses handles).head? expansion =
        some moved ∧
      Moves expansion.memory moved.memory later ∧
      Spreads (log2 + 1) bound moved
        (handles.foldl (utRedistribute (log2 + 1) idealChainMaxlen.toNat) made) later := by
  induction handles generalizing fuel before expansion made with
  | nil =>
      refine ⟨expansion, ?_, ⟨.refl _, rfl, fun _ _ => rfl⟩, spreads⟩
      cases fuel <;> rfl
  | cons handle handles ih =>
      obtain ⟨fuel, rfl⟩ : ∃ rest, fuel = rest + 1 :=
        ⟨fuel - 1, by rw [List.length_cons] at enough; omega⟩
      obtain ⟨node, nodeEq, _⟩ := spreads.stored handle (by simp)
      obtain ⟨moved, moveEq, moves, spreads⟩ := spreads.move power small ideal boundRoom
      have linksAfter : Chained moved.memory.chain none (some handle.address)
          (addresses handles) := by
        refine links.2.congr fun address member => ?_
        obtain ⟨other, otherIn, rfl⟩ := List.mem_map.mp member
        exact moves.kept other (List.mem_append_left _ otherIn)
      obtain ⟨last, lastEq, more, spreads⟩ :=
        ih spreads linksAfter (Nat.le_of_succ_le_succ enough)
      refine ⟨last, ?_, moves.trans more (List.subset_append_right _ _), spreads⟩
      rw [addresses, List.map_cons, List.head?_cons, UtMemory.redistribute, nodeEq,
        Option.bind_eq_bind, Option.bind_some, moveEq, Option.bind_eq_bind, Option.bind_some,
        chain_next links nodeEq, lastEq]

theorem Spreads.redistributeAll {start : UtMemory Key Value} {buckets : List UtMemoryBucket}
    {chains : List (UtBucket Key)} {fuel : Nat}
    (spreads : Spreads (log2 + 1) bound expansion made (chains.flatMap UtBucket.chain))
    (chainOf : List.Forall₂ (ChainOf start) buckets chains)
    (moves : Moves start expansion.memory (chains.flatMap UtBucket.chain))
    (enough : ∀ chain ∈ chains, chain.chain.length ≤ fuel)
    (power : numBuckets.toNat = 2 ^ log2) (small : log2 + 1 < 32)
    (ideal : 0 < idealChainMaxlen.toNat)
    (boundRoom : utCapacityThresh * (bound + 1) < 2 ^ 32) :
    ∃ moved, buckets.foldlM (fun expansion (bucket : UtMemoryBucket) =>
          UtMemory.redistribute idealChainMaxlen numBuckets fuel bucket.hhHead expansion)
          expansion = some moved ∧
      Moves start moved.memory [] ∧
      Spreads (log2 + 1) bound moved
        ((chains.flatMap UtBucket.chain).foldl
          (utRedistribute (log2 + 1) idealChainMaxlen.toNat) made) [] := by
  induction chainOf generalizing made expansion with
  | nil => exact ⟨expansion, rfl, moves, spreads⟩
  | @cons bucket chain buckets chains of rest ih =>
      rw [List.flatMap_cons] at spreads moves
      have links : Chained expansion.memory.chain none none (addresses chain.chain) := by
        refine of.links.congr fun address member => ?_
        obtain ⟨handle, handleIn, rfl⟩ := List.mem_map.mp member
        exact moves.kept handle (List.mem_append_left _ handleIn)
      obtain ⟨moved, movedEq, more, spreads⟩ := spreads.redistribute links
        (enough chain List.mem_cons_self) power small ideal boundRoom
      obtain ⟨last, lastEq, same, spreads⟩ := ih spreads
        (moves.trans more (List.subset_append_right _ _))
        (fun other member => enough other (List.mem_cons_of_mem _ member))
      refine ⟨last, ?_, same, ?_⟩
      · rw [List.foldlM_cons, of.hhHead, movedEq, Option.bind_eq_bind, Option.bind_some, lastEq]
      · rw [List.flatMap_cons, List.foldl_append]
        exact spreads

theorem foldlM_range_getElem? {State Element : Type} (list : List Element)
    (step : State → Element → Option State) (state : State) :
    (List.range list.length).foldlM
        (fun state index => (list[index]?).bind fun element => step state element) state =
      list.foldlM step state := by
  induction list generalizing state with
  | nil => rfl
  | cons element list ih =>
      rw [List.length_cons, List.range_succ_eq_map, List.foldlM_cons, List.foldlM_cons]
      simp only [List.getElem?_cons_zero, Option.bind_some, List.foldlM_map,
        List.getElem?_cons_succ]
      exact congrArg _ (funext fun state => ih state)

end

section

structure TableOf (memory : UtMemory Key Value) (tbl : UtMemoryTable) (table : UtTable Key) :
    Prop where
  log2NumBuckets : tbl.log2NumBuckets.toNat = table.log2NumBuckets
  numBuckets : tbl.numBuckets.toNat = 2 ^ table.log2NumBuckets
  length : table.buckets.length = 2 ^ table.log2NumBuckets
  ineffExpands : tbl.ineffExpands.toNat = table.ineffExpands
  effective : table.noexpand = false → table.ineffExpands ≤ 1
  noexpand : tbl.noexpand = if table.noexpand then 1 else 0
  buckets : BucketsOf memory tbl.buckets table.buckets

variable {memory : UtMemory Key Value} {tbl : UtMemoryTable} {table : UtTable Key}

theorem TableOf.make (memory : UtMemory Key Value) (tail : Nat) :
    TableOf memory (.make tail) UtTable.make where
  log2NumBuckets := rfl
  numBuckets := rfl
  length := by simp [UtTable.make]
  ineffExpands := rfl
  effective _ := by simp [UtTable.make]
  noexpand := rfl
  buckets := .empty memory _

theorem TableOf.congr {other : UtMemory Key Value} (of : TableOf memory tbl table)
    (same : ∀ chain ∈ table.buckets, ∀ address ∈ addresses chain.chain,
      other.chain address = memory.chain address) : TableOf other tbl table :=
  { of with buckets := of.buckets.congr same }

theorem BucketsOf.forall₂ {buckets : List UtMemoryBucket} {chains : List (UtBucket Key)}
    (of : BucketsOf memory buckets chains) :
    List.Forall₂ (ChainOf memory) buckets chains := by
  rw [List.forall₂_iff_get]
  refine ⟨of.length, fun index inBuckets inChains => ?_⟩
  exact of.chainOf index _ _ (List.getElem?_eq_getElem inBuckets)
    (List.getElem?_eq_getElem inChains)

/-- What the elements of the chains must be for the buckets to be doubled. -/
structure Expandable (memory : UtMemory Key Value) (table : UtTable Key) (numItems : Nat) :
    Prop where
  nodup : (addresses (table.buckets.flatMap UtBucket.chain)).Nodup
  length : (table.buckets.flatMap UtBucket.chain).length ≤ numItems
  fuel : numItems ≤ memory.fresh
  stored : ∀ handle ∈ table.buckets.flatMap UtBucket.chain, ∃ node,
    memory.nodes handle.address = some node ∧ node.hh.hashv = handle.hashv
  items : 0 < numItems
  room : utCapacityThresh * (numItems + 1) < 2 ^ 32
  small : table.log2NumBuckets + 1 < 32

theorem Expandable.spreads {numItems : Nat} (expandable : Expandable memory table numItems) :
    Spreads (table.log2NumBuckets + 1) numItems
      { memory, newBuckets := List.replicate (2 ^ (table.log2NumBuckets + 1)) {} }
      (List.replicate (2 ^ (table.log2NumBuckets + 1)) {}, 0)
      (table.buckets.flatMap UtBucket.chain) where
  buckets := .empty memory _
  length := List.length_replicate
  nonideal := rfl
  nonidealRoom := by simpa using expandable.length
  room chain member := by
    rw [List.eq_of_mem_replicate member]
    simpa using expandable.length
  outside handle _ chain member := by
    rw [List.eq_of_mem_replicate member]
    exact List.not_mem_nil
  nodup := expandable.nodup
  stored := expandable.stored

theorem TableOf.expanded {numItems : Nat} {moved : Expansion Key Value}
    (of : TableOf memory tbl table) (counted : tbl.numItems.toNat = numItems)
    (expands : table.noexpand = false) (small : table.log2NumBuckets + 1 < 32)
    (spreads : Spreads (table.log2NumBuckets + 1) numItems moved
      ((table.buckets.flatMap UtBucket.chain).foldl
        (utRedistribute (table.log2NumBuckets + 1)
          (utIdealChainMaxlen numItems (table.log2NumBuckets + 1)))
        (List.replicate (2 ^ (table.log2NumBuckets + 1)) {}, 0)) []) :
    TableOf moved.memory (expandedTable tbl moved.newBuckets moved.nonidealItems)
      (table.expandBuckets numItems) := by
  have half : tbl.numItems >>> 1 < moved.nonidealItems ↔
      numItems / 2 < moved.nonidealItems.toNat := by
    rw [BitVec.lt_def, BitVec.toNat_ushiftRight, counted, Nat.shiftRight_eq_div_pow, Nat.pow_one]
  have fewIneffective := of.effective expands
  have counts : (if tbl.numItems >>> 1 < moved.nonidealItems then tbl.ineffExpands + 1
      else 0).toNat = (table.expandBuckets numItems).ineffExpands := by
    simp only [UtTable.expandBuckets, half, spreads.nonideal]
    split
    · rename_i more
      rw [utIdealChainMaxlen] at more
      rw [BitVec.toNat_add, of.ineffExpands, if_pos more]
      simp only [BitVec.reduceToNat]
      omega
    · rename_i less
      rw [utIdealChainMaxlen] at less
      rw [if_neg less]
      rfl
  have more : (1 : BitVec 32) < (if tbl.numItems >>> 1 < moved.nonidealItems then
      tbl.ineffExpands + 1 else 0) ↔ 1 < (table.expandBuckets numItems).ineffExpands := by
    rw [BitVec.lt_def, counts]
    rfl
  refine ⟨toNat_log2_succ of.log2NumBuckets small, toNat_doubled of.numBuckets small,
    spreads.length, counts, ?_, ?_, spreads.buckets⟩
  · intro still
    have decided : (table.noexpand ||
        decide (1 < (table.expandBuckets numItems).ineffExpands)) = false := still
    simp only [expands, Bool.false_or, decide_eq_false_iff_not] at decided
    omega
  · have given : (table.expandBuckets numItems).noexpand =
        (table.noexpand || decide (1 < (table.expandBuckets numItems).ineffExpands)) := rfl
    rw [given, expands, Bool.false_or]
    simp only [expandedTable, more, of.noexpand, expands, decide_eq_true_eq]
    rfl

/-- The buckets are doubled, in memory as in the list of the chains. -/
theorem TableOf.expandBuckets {numItems address : Nat} (of : TableOf memory tbl table)
    (there : memory.tables address = some tbl) (counted : tbl.numItems.toNat = numItems)
    (expandable : Expandable memory table numItems) (expands : table.noexpand = false) :
    ∃ other after, memory.expandBuckets address = some other ∧
      SameElements memory other ∧
      other.tables = Function.update memory.tables address (some after) ∧
      TableOf other after (table.expandBuckets numItems) ∧
      after.numItems = tbl.numItems ∧ after.tail = tbl.tail := by
  have small := expandable.small
  have idealEq := toNat_idealChainMaxlen of.numBuckets of.log2NumBuckets small
  rw [counted] at idealEq
  have positive := utIdealChainMaxlen_pos expandable.items (table.log2NumBuckets + 1)
  rw [← idealEq] at positive
  have length : tbl.numBuckets.toNat = tbl.buckets.length := by
    rw [of.numBuckets, of.buckets.length, of.length]
  have fuel : ∀ chain ∈ table.buckets, chain.chain.length ≤ memory.fresh := by
    intro chain member
    have part : chain.chain.Sublist (table.buckets.flatMap UtBucket.chain) := by
      rw [List.flatMap_def]
      exact List.sublist_flatten_of_mem (List.mem_map_of_mem member)
    exact (part.length_le.trans expandable.length).trans expandable.fuel
  obtain ⟨moved, movedEq, moves, spreads⟩ := expandable.spreads.redistributeAll
    of.buckets.forall₂ ⟨.refl _, rfl, fun _ _ => rfl⟩ fuel of.numBuckets small positive
    expandable.room
  rw [idealEq] at spreads
  have loop : (List.range tbl.numBuckets.toNat).foldlM
      (fun (expansion : Expansion Key Value) bktI => (tbl.buckets[bktI]?).bind fun bucket =>
        redistribute (idealChainMaxlen tbl) tbl.numBuckets memory.fresh bucket.hhHead expansion)
      { memory, newBuckets := List.replicate (2 * tbl.numBuckets.toNat) {} } = some moved := by
    rw [length, foldlM_range_getElem?, ← length, of.numBuckets, Nat.mul_comm, ← Nat.pow_succ]
    exact movedEq
  refine ⟨_, _, ?_, moves.same.trans (.putTable _ address
    (expandedTable tbl moved.newBuckets moved.nonidealItems)), ?_,
    (of.expanded counted expands expandable.small spreads).congr fun _ _ _ _ => rfl, rfl, rfl⟩
  · simp only [UtMemory.expandBuckets, there, Option.bind_eq_bind, Option.bind_some,
      toNat_log2_succ of.log2NumBuckets small, if_neg (Nat.not_le.mpr small), loop]
  · simp only [putTable, moves.tables]

end

end UtMemory

end PhpDriver.Data
