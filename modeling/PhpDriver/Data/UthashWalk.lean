import PhpDriver.Data.UthashDelete
import PhpDriver.Data.UtPass

namespace PhpDriver.Data

namespace UtMemory

variable {memory : UtMemory Key Value} {head : UtHash Key Value}

theorem Refines.start (uninitialized : Nat → UtHh) :
    Refines ({ uninitialized } : UtMemory Key Value) {} where
  linked := .empty
  fresh := rfl
  listed := ⟨rfl, fun _ => by simp [addresses], fun _ member => absurd member List.not_mem_nil,
    trivial⟩
  empty _ := rfl
  table present := absurd rfl present

/-! Following pointers to elements. -/

/-- What is read of an element in memory is what it has in the list. -/
theorem Refines.read (refines : Refines memory head) {Item : Type}
    (project : UtNode Key Value → Item) (item : UtElement Key Value → Item)
    (same : ∀ (element : UtElement Key Value) hh,
      project { key := element.key, value := element.value, hh } = item element)
    (address : Nat) :
    (memory.nodes address).map project = (head.follow address).map item := by
  cases followed : head.follow address with
  | none =>
      have missing : ¬(memory.nodes address).isSome := by
        rw [refines.listed.live]
        intro member
        obtain ⟨handle, handleIn, same⟩ := List.mem_map.mp member
        have := (UtHash.follow_isSome_iff address).mpr ⟨handle, handleIn, same⟩
        simp [followed] at this
      rw [Option.not_isSome_iff_eq_none] at missing
      rw [missing]
      rfl
  | some element =>
      have member := List.mem_of_find?_eq_some followed
      have found : element.address = address := by simpa using List.find?_some followed
      obtain ⟨hh, nodeEq, _⟩ := refines.listed.node member
      rw [← found, nodeEq, Option.map_some, same]
      rfl

theorem Refines.next_of_split (refines : Refines memory head) {first second : List (UtHandle Key)}
    {handle : UtHandle Key} (split : head.handles = first ++ handle :: second) :
    memory.nextOf (some handle.address) = some (addresses second).head? := by
  have order : Chained memory.order none none (addresses head.handles) := refines.listed.order
  rw [split] at order
  obtain ⟨node, nodeEq, pointersEq⟩ := Option.map_eq_some_iff.mp (pointers_of_chained order)
  rw [Pointers.mk.injEq] at pointersEq
  rw [UtMemory.nextOf, nodeEq, Option.map_some, pointersEq.2]

/-- What follows an element in memory is what follows it in the list. -/
theorem Refines.nextOf (refines : Refines memory head) (pointer : Option Nat) :
    memory.nextOf pointer = head.after pointer := by
  cases pointer with
  | none => rfl
  | some address =>
      by_cases member : address ∈ head.addresses
      · obtain ⟨handle, handleIn, rfl⟩ := List.mem_map.mp member
        obtain ⟨first, second, split⟩ := List.append_of_mem handleIn
        have missing : handle.address ∉ addresses first := by
          have nodup := refines.linked.nodup
          rw [split, List.map_append, List.map_cons] at nodup
          exact fun inside => List.disjoint_of_nodup_append nodup inside List.mem_cons_self
        have shape : head.addresses = addresses first ++ handle.address :: addresses second := by
          rw [UtHash.addresses, split, List.map_append, List.map_cons, addresses, addresses]
        rw [refines.next_of_split split, refines.linked.after_of_mem handleIn,
          UtHash.next_address_eq, shape, dropWhile_ne_append missing, List.drop_one,
          List.tail_cons]
      · have noNode : memory.nodes address = none := by
          rw [← Option.not_isSome_iff_eq_none, refines.listed.live]
          exact member
        have notFollowed : head.follow address = none := by
          rw [← Option.not_isSome_iff_eq_none, UtHash.follow_isSome_iff]
          exact fun there => member (UtHash.mem_addresses_iff.mpr there)
        rw [UtMemory.nextOf, noNode, UtHash.after, notFollowed]
        rfl

theorem Refines.head_eq (refines : Refines memory head) :
    memory.head = head.first.map UtHandle.address := by
  rw [refines.listed.head, addresses, List.head?_map]
  rfl

theorem Refines.nextOf_head (refines : Refines memory head) :
    memory.nextOf (head.first.map UtHandle.address) =
      some ((head.first.bind head.next).map UtHandle.address) := by
  rw [refines.nextOf]
  cases first : head.first with
  | none => rfl
  | some handle => exact refines.linked.after_of_mem (List.mem_of_head? first)

/-- A pointer to an element that is about to be removed moves on. -/
theorem Refines.stepOver (refines : Refines memory head) {handle : UtHandle Key}
    (member : handle ∈ head.handles) (pointer : Option Nat) :
    memory.stepOver handle.address pointer =
      some (if pointer = some handle.address then
        (head.next handle).map UtHandle.address else pointer) := by
  rw [UtMemory.stepOver]
  by_cases same : pointer = some handle.address
  · rw [if_pos same.symm, if_pos same, same, refines.nextOf, refines.linked.after_of_mem member]
  · rw [if_neg (Ne.symm same), if_neg same]

theorem Refines.storeValue (refines : Refines memory head) {handle : UtHandle Key}
    (member : handle ∈ head.handles) (value : Value) :
    ∃ other, memory.storeValue handle.address value = some other ∧
      Refines other (head.setValue handle value) := by
  obtain ⟨node, nodeEq, _, _⟩ := refines.listed.stored member
  let other : UtMemory Key Value :=
    { memory with
      nodes := Function.update memory.nodes handle.address (some { node with value }) }
  have kept {Data : Type} (project : UtNode Key Value → Data)
      (ignores : project { node with value } = project node) (address : Nat) :
      (other.nodes address).map project = (memory.nodes address).map project := by
    by_cases same : address = handle.address
    · simp [other, same, nodeEq, ignores]
    · simp [other, same]
  have handlesEq := @UtHash.handles_setValue _ _ head handle value
  have remaining : (head.setValue handle value).elements.map UtElement.toUtHandle =
      head.elements.map UtElement.toUtHandle := handlesEq
  have sameLength : (head.setValue handle value).elements.length = head.elements.length :=
    List.length_map _
  have order : other.order = memory.order := funext (kept _ rfl)
  have chain : other.chain = memory.chain := funext (kept _ rfl)
  have tblOf : other.tblOf = memory.tblOf := funext (kept _ rfl)
  refine ⟨other, ?_, refines.linked.setValue handle value, refines.fresh, ?_, ?_, ?_⟩
  · rw [UtMemory.storeValue, nodeEq]
    rfl
  · constructor
    · rw [remaining]
      exact refines.listed.head
    · intro address
      rw [remaining, ← refines.listed.live, ← isSome_order, order, isSome_order]
    · intro element inElements
      obtain ⟨old, oldIn, rfl⟩ := List.mem_map.mp inElements
      have content := refines.listed.content old oldIn
      split
      · rename_i same
        simp only [UtMemory.content, same, nodeEq, Option.map_some, Option.some.injEq,
          Prod.mk.injEq] at content
        simp only [UtMemory.content, same, other, Function.update_self, Option.map_some, content]
      · rename_i different
        simp only [UtMemory.content, other, Function.update_of_ne different]
        exact content
    · rw [remaining, order]
      exact refines.listed.order
  · intro none
    exact refines.empty (List.map_eq_nil_iff.mp none)
  · intro present
    obtain ⟨address, tbl, hasTable⟩ := refines.table (by
      rintro none
      exact present (by rw [UtHash.setValue, none]; rfl))
    refine ⟨address, tbl, hasTable.tables, ?_, ?_, ?_, ?_⟩
    · rw [handlesEq, tblOf]
      exact hasTable.tblOf
    · rw [handlesEq]
      exact hasTable.tail
    · rw [sameLength]
      exact hasTable.numItems
    · exact hasTable.of.congr fun _ _ old _ => congrFun chain old

/-! `HASH_ITER`. -/

section

variable {State : Type} {body : State → Nat → Option State}

/-- A loop that leaves the table alone comes to every element, in order. -/
theorem Refines.iterFrom_reading (refines : Refines memory head)
    {first second : List (UtHandle Key)} {fuel : Nat} {state : State}
    (split : head.handles = first ++ second) (enough : second.length ≤ fuel) :
    iterFrom (fun _ => memory) body fuel (addresses second).head?
        (addresses (second.drop 1)).head? state =
      (addresses second).foldlM body state := by
  induction second generalizing first fuel state with
  | nil => cases fuel <;> rfl
  | cons handle second ih =>
      obtain ⟨fuel, rfl⟩ : ∃ rest, fuel = rest + 1 :=
        ⟨fuel - 1, by rw [List.length_cons] at enough; omega⟩
      have rest (state : State) := @ih (first ++ [handle]) fuel state
        (by rw [split, List.append_cons]) (Nat.le_of_succ_le_succ enough)
      have following : memory.nextOf (addresses second).head? =
          some (addresses (second.drop 1)).head? := by
        cases second with
        | nil => rfl
        | cons next others =>
            exact @Refines.next_of_split _ _ memory head refines (first ++ [handle]) others next
              (by rw [split, List.append_cons])
      rw [List.drop_one, List.tail_cons, addresses, List.map_cons, List.head?_cons, iterFrom,
        List.foldlM_cons]
      cases body state handle.address with
      | none => rfl
      | some after =>
          simp only [Option.bind_eq_bind, Option.bind_some]
          rw [following, Option.bind_some]
          exact rest after

theorem Refines.next_head (refines : Refines memory head) :
    memory.nextOf memory.head = some (addresses (head.handles.drop 1)).head? := by
  cases handles : head.handles with
  | nil =>
      rw [refines.head_eq, UtHash.first, handles]
      rfl
  | cons handle rest =>
      rw [refines.head_eq, UtHash.first, handles]
      exact @Refines.next_of_split _ _ memory head refines [] rest handle handles

theorem Refines.iter_reading (refines : Refines memory head) (state : State) :
    iter (fun _ => memory) body state = head.addresses.foldlM body state := by
  have fewer : head.handles.length ≤ memory.fresh := by
    rw [refines.fresh, UtHash.handles, List.length_map]
    exact length_le_fresh refines.linked
  rw [iter, refines.next_head, Option.bind_eq_bind, Option.bind_some]
  have walked := @Refines.iterFrom_reading _ _ memory head _ body refines [] head.handles
    memory.fresh state rfl fewer
  rw [refines.listed.head]
  exact walked

/-- A loop that puts something of every element behind what it has. -/
theorem Refines.collect (refines : Refines memory head) {Item : Type}
    (project : UtNode Key Value → Item) (item : UtElement Key Value → Item)
    (same : ∀ (element : UtElement Key Value) hh,
      project { key := element.key, value := element.value, hh } = item element) :
    iter (fun _ => memory) (fun array curr => (memory.nodes curr).map fun node =>
      array ++ [project node]) [] = some (head.elements.map item) := by
  have collected (elements : List (UtElement Key Value)) (inside : elements ⊆ head.elements)
      (array : List Item) :
      (addresses (elements.map UtElement.toUtHandle)).foldlM (fun array curr =>
        (memory.nodes curr).map fun node => array ++ [project node]) array =
        some (array ++ elements.map item) := by
    induction elements generalizing array with
    | nil => simp [addresses]
    | cons element rest ih =>
        obtain ⟨hh, nodeEq, _⟩ := refines.listed.node (inside List.mem_cons_self)
        rw [addresses, List.map_cons, List.map_cons, List.foldlM_cons, nodeEq, Option.map_some,
          same, Option.bind_eq_bind, Option.bind_some]
        refine (ih (fun other member => inside (List.mem_cons_of_mem _ member)) _).trans ?_
        rw [List.map_cons, List.append_assoc, List.singleton_append]
  rw [refines.iter_reading]
  exact collected head.elements (List.Subset.refl _) []

def freeAll (memory : UtMemory Key Value) : Option (UtMemory Key Value) :=
  iter (fun memory => memory)
    (fun memory el => (memory.delete el).bind fun memory => memory.free el) memory

theorem handles_delete_head {handle : UtHandle Key} {rest : List (UtHandle Key)}
    (linked : head.Linked) (handles : head.handles = handle :: rest) :
    (head.delete handle).handles = rest := by
  have nodup := linked.nodup
  rw [handles] at nodup
  rw [UtHash.handles_delete, handles]
  exact @filter_address_ne _ [] rest handle nodup

theorem Refines.freeAll_from (refines : Refines memory head) {handles : List (UtHandle Key)}
    {fuel : Nat} (are : head.handles = handles) (enough : handles.length ≤ fuel) :
    ∃ other emptied, iterFrom (fun memory => memory)
        (fun memory el => (memory.delete el).bind fun memory => memory.free el) fuel
        (addresses handles).head? (addresses (handles.drop 1)).head? memory = some other ∧
      Refines other emptied ∧ emptied.elements = [] := by
  induction handles generalizing memory head fuel with
  | nil => exact ⟨memory, head, by cases fuel <;> rfl, refines, List.map_eq_nil_iff.mp are⟩
  | cons handle rest ih =>
      obtain ⟨fuel, rfl⟩ : ∃ more, fuel = more + 1 :=
        ⟨fuel - 1, by rw [List.length_cons] at enough; omega⟩
      obtain ⟨after, deleted, afterRefines⟩ :=
        delete_refines refines (by rw [are]; exact List.mem_cons_self)
      have left := handles_delete_head refines.linked are
      have following : after.nextOf (addresses rest).head? =
          some (addresses (rest.drop 1)).head? := by
        cases rest with
        | nil => rfl
        | cons next others =>
            exact @Refines.next_of_split _ _ after _ afterRefines [] others next left
      obtain ⟨last, emptied, walked, lastRefines, none⟩ :=
        ih afterRefines left (Nat.le_of_succ_le_succ enough)
      refine ⟨last, emptied, ?_, lastRefines, none⟩
      rw [List.drop_one, List.tail_cons, addresses, List.map_cons, List.head?_cons, iterFrom,
        deleted, Option.bind_eq_bind, Option.bind_some, following,
        Option.bind_eq_bind, Option.bind_some, walked]

/-- All elements and the table are given back, and none of them twice. -/
theorem Refines.freeAll (refines : Refines memory head) :
    ∃ other, memory.freeAll = some other ∧ other.head = none ∧
      (∀ address, other.nodes address = none) ∧ ∀ address, other.tables address = none := by
  have fewer : head.handles.length ≤ memory.fresh := by
    rw [refines.fresh, UtHash.handles, List.length_map]
    exact length_le_fresh refines.linked
  obtain ⟨other, emptied, walked, otherRefines, none⟩ := refines.freeAll_from rfl fewer
  refine ⟨other, ?_, otherRefines.head_nil none, ?_, ?_⟩
  · rw [UtMemory.freeAll, iter, refines.next_head, Option.bind_eq_bind, Option.bind_some,
      refines.listed.head]
    exact walked
  · intro address
    rw [← Option.not_isSome_iff_eq_none, otherRefines.listed.live, none]
    exact List.not_mem_nil
  · intro address
    rw [otherRefines.empty none]

end

end UtMemory

end PhpDriver.Data
