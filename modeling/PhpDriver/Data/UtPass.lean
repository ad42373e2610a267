import PhpDriver.Data.UtCursor

namespace PhpDriver.Data

/-! A pass of a cursor over a table that changes on the way. What it has come by, and what has
been in the table all the time, are kept by address. -/

structure UtPass where
  visited : List Nat
  /-- In the table since the pass began. -/
  kept : List Nat
  nexts : Nat := 0
  additions : Nat := 0

namespace UtHash

variable (head : UtHash Key Value)

def addresses : List Nat :=
  head.handles.map UtHandle.address

def ahead : Option Nat → List Nat
  | none => []
  | some address => head.addresses.dropWhile (· != address)

def startPass : UtPass where
  visited := head.rewind.curr.toList
  kept := head.addresses

end UtHash

namespace UtPass

def changed (pass : UtPass) (head : UtHash Key Value) : UtPass :=
  { pass with kept := pass.kept.filter (· ∈ head.addresses) }

def added (pass : UtPass) : UtPass :=
  { pass with additions := pass.additions + 1 }

def moved (pass : UtPass) (cursor : UtCursor) : UtPass :=
  { pass with visited := pass.visited ++ cursor.curr.toList, nexts := pass.nexts + 1 }

/-- How a pass over a table that had so many elements at its begin stands. -/
structure Tracks (size : Nat) (head : UtHash Key Value) (cursor : UtCursor) (pass : UtPass) :
    Prop where
  linked : head.Linked
  walks : head.Walks cursor
  ended : cursor.curr = none → cursor.temp = none
  listed : pass.kept.Sublist head.addresses
  split : pass.visited.filter (· ∈ pass.kept) ++
    (head.ahead cursor.temp).filter (· ∈ pass.kept) = pass.kept
  distinct : (pass.visited ++ head.ahead cursor.temp).Nodup
  old : ∀ address ∈ pass.visited, address < head.fresh
  last : ∀ address, cursor.curr = some address → pass.visited.getLast? = some address
  count : cursor.curr.isSome → pass.nexts + 1 = pass.visited.length
  budget : pass.visited.length + (head.ahead cursor.temp).length ≤ size + pass.additions

end UtPass

/-! Lists without duplicates, from one of their members on. -/

section

variable {list : List Nat} {address : Nat}

theorem exists_split (member : address ∈ list) (nodup : list.Nodup) :
    ∃ before after, list = before ++ address :: after ∧ address ∉ before ∧ address ∉ after ∧
      ∀ other ∈ after, other ∉ before := by
  obtain ⟨before, after, rfl⟩ := List.append_of_mem member
  rw [List.nodup_append, List.nodup_cons] at nodup
  obtain ⟨_, ⟨notAfter, _⟩, disjoint⟩ := nodup
  refine ⟨before, after, rfl, ?_, notAfter, ?_⟩
  · intro inBefore
    exact disjoint address inBefore address List.mem_cons_self rfl
  · intro other inAfter inBefore
    exact disjoint other inBefore other (List.mem_cons_of_mem _ inAfter) rfl

theorem dropWhile_ne_append {before after : List Nat} (missing : address ∉ before) :
    (before ++ address :: after).dropWhile (· != address) = address :: after := by
  rw [List.dropWhile_append_of_pos]
  · simp
  · intro other member
    simp only [bne_iff_ne, ne_eq]
    rintro rfl
    exact missing member

theorem dropWhile_ne_filter (gone : Nat) (other : address ≠ gone) (nodup : list.Nodup)
    (member : address ∈ list) :
    (list.filter (· != gone)).dropWhile (· != address) =
      (list.dropWhile (· != address)).filter (· != gone) := by
  obtain ⟨before, after, rfl, missing, _⟩ := exists_split member nodup
  have kept : (address != gone) = true := by simpa using other
  rw [dropWhile_ne_append missing, List.filter_append, List.filter_cons, if_pos kept,
    dropWhile_ne_append fun inBefore => missing (List.mem_filter.mp inBefore).1]

end

namespace UtHash

variable {head : UtHash Key Value}

theorem mem_addresses_iff {address : Nat} :
    address ∈ head.addresses ↔ ∃ handle ∈ head.handles, handle.address = address :=
  List.mem_map

theorem Linked.lt_fresh (linked : Linked head) {address : Nat}
    (member : address ∈ head.addresses) : address < head.fresh := by
  obtain ⟨handle, inside, rfl⟩ := mem_addresses_iff.mp member
  exact linked.fresh handle inside

theorem addresses_delete (entry : UtHandle Key) :
    (head.delete entry).addresses = head.addresses.filter (· != entry.address) := by
  rw [addresses, handles_delete, addresses, List.filter_map]
  rfl

theorem addresses_add {hash : Key → Option (BitVec 32)} {key : Key} {value : Value}
    {grown : UtHash Key Value} (added : head.add hash key value = some grown) :
    grown.addresses = head.addresses ++ [head.fresh] := by
  obtain ⟨_, _, handles⟩ := handles_add added
  rw [addresses, handles, List.map_append, addresses]
  rfl

theorem fresh_add {hash : Key → Option (BitVec 32)} {key : Key} {value : Value}
    {grown : UtHash Key Value} (added : head.add hash key value = some grown) :
    grown.fresh = head.fresh + 1 := by
  rw [add, Option.bind_eq_bind, Option.bind_eq_some_iff] at added
  obtain ⟨hashv, _, added⟩ := added
  obtain rfl := Option.some.inj added
  rfl

theorem addresses_setValue (entry : UtHandle Key) (value : Value) :
    (head.setValue entry value).addresses = head.addresses := by
  rw [addresses, handles_setValue, addresses]

theorem ahead_sublist (pointer : Option Nat) : (head.ahead pointer).Sublist head.addresses := by
  cases pointer with
  | none => exact List.nil_sublist _
  | some address => exact List.dropWhile_sublist _

theorem next_address_eq (entry : UtHandle Key) :
    (head.next entry).map UtHandle.address =
      ((head.addresses.dropWhile (· != entry.address)).drop 1).head? := by
  rw [next, addresses, List.dropWhile_map, List.map_drop.symm, List.head?_map]
  rfl

/-- From an element on there is itself, and then what is from the next one on. -/
theorem ahead_of_mem (linked : Linked head) {entry : UtHandle Key} (member : entry ∈ head.handles) :
    head.ahead (some entry.address) =
      entry.address :: head.ahead ((head.next entry).map UtHandle.address) := by
  have inside : entry.address ∈ head.addresses := List.mem_map_of_mem member
  obtain ⟨before, after, shape, missing, notAfter, disjoint⟩ := exists_split inside linked.nodup
  change head.addresses = before ++ entry.address :: after at shape
  rw [next_address_eq, ahead, shape, dropWhile_ne_append missing, List.drop_one, List.tail_cons]
  congr 1
  cases after with
  | nil => rfl
  | cons first rest =>
      have elsewhere : first ∉ before ++ [entry.address] := by
        rw [List.mem_append, List.mem_singleton, not_or]
        refine ⟨disjoint first List.mem_cons_self, ?_⟩
        rintro rfl
        exact notAfter List.mem_cons_self
      rw [List.head?_cons, ahead, shape]
      have again := @dropWhile_ne_append _ _ rest elsewhere
      rw [List.append_assoc] at again
      exact again.symm

theorem Linked.after_of_mem (linked : Linked head) {entry : UtHandle Key}
    (member : entry ∈ head.handles) :
    head.after (some entry.address) = some ((head.next entry).map UtHandle.address) := by
  obtain ⟨element, followed⟩ :=
    Option.isSome_iff_exists.mp ((follow_isSome_iff entry.address).mpr ⟨entry, member, rfl⟩)
  have found : element ∈ head.elements := List.mem_of_find?_eq_some followed
  have same : element.address = entry.address := by
    simpa using List.find?_some followed
  have handle : element.toUtHandle = entry :=
    linked.eq_of_address (List.mem_map_of_mem found) member same
  rw [after, followed, Option.map_some, handle]

/-- What is ahead when an element has gone, and the pointer to it has been moved on. -/
theorem ahead_delete (linked : Linked head) {cursor : UtCursor} (walks : head.Walks cursor)
    {entry : UtHandle Key} (member : entry ∈ head.handles) :
    (head.delete entry).ahead (head.stepOver entry cursor).temp =
      (head.ahead cursor.temp).filter (· != entry.address) := by
  have behind (pointer : Option Nat) (points : head.Points pointer)
      (elsewhere : pointer ≠ some entry.address) : (head.delete entry).ahead pointer =
        (head.ahead pointer).filter (· != entry.address) := by
    cases pointer with
    | none => rfl
    | some address =>
        have other : address ≠ entry.address := fun same => elsewhere (congrArg some same)
        rw [ahead, addresses_delete]
        exact dropWhile_ne_filter _ other linked.nodup (mem_addresses_iff.mpr (points _ rfl))
  rw [stepOver]
  split
  · rename_i pointed
    have moved : (head.next entry).map UtHandle.address ≠ some entry.address := by
      intro same
      obtain ⟨found, next, equal⟩ := Option.map_eq_some_iff.mp same
      exact next_address_ne linked next equal
    have points : head.Points ((head.next entry).map UtHandle.address) :=
      .of_mem fun handle next => next_mem next
    rw [behind _ points moved, pointed, ahead_of_mem linked member, List.filter_cons, if_neg]
    simp
  · rename_i elsewhere
    exact behind _ walks.temp elsewhere

theorem ahead_add {hash : Key → Option (BitVec 32)} {key : Key} {value : Value}
    {grown : UtHash Key Value} (added : head.add hash key value = some grown)
    {pointer : Option Nat} (points : head.Points pointer) :
    grown.ahead pointer = head.ahead pointer ++ (pointer.map fun _ => head.fresh).toList := by
  cases pointer with
  | none => rfl
  | some address =>
      have inside := mem_addresses_iff.mpr (points address rfl)
      obtain ⟨before, after, shape, missing⟩ := List.eq_append_cons_of_mem inside
      rw [ahead, ahead, addresses_add added, shape, dropWhile_ne_append missing,
        List.append_assoc, List.cons_append, dropWhile_ne_append missing]
      rfl

end UtHash

namespace UtPass.Tracks

variable {head : UtHash Key Value} {cursor : UtCursor} {pass : UtPass} {size : Nat}

theorem start (linked : head.Linked) :
    Tracks head.addresses.length head head.rewind head.startPass := by
  cases handles : head.handles with
  | nil =>
      have none : head.first = none := by rw [UtHash.first, handles]; rfl
      have empty : head.addresses = [] := by rw [UtHash.addresses, handles]; rfl
      have rewound : head.rewind = {} := by rw [UtHash.rewind, none]; rfl
      have started : head.startPass = { visited := [], kept := [] } := by
        rw [UtHash.startPass, rewound, empty]
        rfl
      rw [rewound, started]
      exact ⟨linked, .start, fun _ => rfl, List.nil_sublist _, rfl, List.nodup_nil, by simp, by simp,
        by simp, Nat.zero_le _⟩
  | cons entry rest =>
      have first : head.first = some entry := by rw [UtHash.first, handles]; rfl
      have member : entry ∈ head.handles := by rw [handles]; exact List.mem_cons_self
      have all : head.addresses =
          entry.address :: head.ahead ((head.next entry).map UtHandle.address) := by
        rw [← UtHash.ahead_of_mem linked member, UtHash.ahead, UtHash.addresses, handles]
        simp
      have rewound : head.rewind =
          { curr := some entry.address, temp := (head.next entry).map UtHandle.address } := by
        rw [UtHash.rewind, first]
        rfl
      have started : head.startPass = { visited := [entry.address], kept := head.addresses } := by
        rw [UtHash.startPass, rewound]
        rfl
      have nodup : head.addresses.Nodup := linked.nodup
      have old := linked.lt_fresh (all ▸ List.mem_cons_self)
      have walks : head.Walks head.rewind := UtHash.rewind_walks
      rw [rewound] at walks ⊢
      rw [started]
      refine ⟨linked, walks, by simp, List.Sublist.refl _, ?_, all ▸ nodup, ?_, ?_,
        fun _ => rfl, ?_⟩
      · rw [← List.filter_append]
        exact (congrArg _ all.symm).trans (List.filter_eq_self.mpr fun _ member => by simpa)
      · simpa using old
      · intro address same
        obtain rfl := Option.some.inj same
        rfl
      · rw [all]
        simp [Nat.add_comm]

theorem changed_of_subset (tracks : Tracks size head cursor pass) {grown : UtHash Key Value}
    (includes : head.addresses ⊆ grown.addresses) : pass.changed grown = pass := by
  have all : pass.kept.filter (· ∈ grown.addresses) = pass.kept := by
    apply List.filter_eq_self.mpr
    intro address member
    simpa using includes (tracks.listed.subset member)
  rw [changed, all]

theorem add {hash : Key → Option (BitVec 32)} {key : Key} {value : Value}
    {grown : UtHash Key Value} (tracks : Tracks size head cursor pass)
    (grew : head.add hash key value = some grown) :
    Tracks size grown cursor (pass.changed grown).added := by
  have addresses := UtHash.addresses_add grew
  have ahead := UtHash.ahead_add grew tracks.walks.temp
  have fresh : grown.fresh = head.fresh + 1 := UtHash.fresh_add grew
  have new : head.fresh ∉ pass.kept := fun member =>
    Nat.lt_irrefl _ (tracks.linked.lt_fresh (tracks.listed.subset member))
  have more : ∀ address ∈ (cursor.temp.map fun _ => head.fresh).toList, address = head.fresh := by
    cases cursor.temp <;> simp
  rw [tracks.changed_of_subset (addresses ▸ List.subset_append_left _ _)]
  refine ⟨tracks.linked.add grew, tracks.walks.add grew, tracks.ended, ?_, ?_, ?_, ?_, tracks.last,
    tracks.count, ?_⟩
  · rw [addresses]
    exact tracks.listed.trans (List.sublist_append_left _ _)
  · have noMore : (cursor.temp.map fun _ => head.fresh).toList.filter (· ∈ pass.kept) = [] := by
      apply List.filter_eq_nil_iff.mpr
      intro address member
      rw [more address member]
      simpa using new
    change pass.visited.filter (· ∈ pass.kept) ++ (grown.ahead cursor.temp).filter (· ∈ pass.kept) =
      pass.kept
    rw [ahead, List.filter_append, noMore, List.append_nil]
    exact tracks.split
  · simp only [added, ahead]
    rw [← List.append_assoc]
    apply tracks.distinct.append
    · cases cursor.temp <;> simp
    · intro address before after
      rw [more address after, List.mem_append] at before
      rcases before with seen | later
      · exact Nat.lt_irrefl _ (tracks.old _ seen)
      · exact Nat.lt_irrefl _ (tracks.linked.lt_fresh ((UtHash.ahead_sublist _).subset later))
  · intro address member
    rw [fresh]
    exact Nat.lt_succ_of_lt (tracks.old address member)
  · have one : (cursor.temp.map fun _ => head.fresh).toList.length ≤ 1 := by
      cases cursor.temp <;> simp
    have budget := tracks.budget
    simp only [added, ahead, List.length_append]
    omega

theorem setValue (tracks : Tracks size head cursor pass) (entry : UtHandle Key) (value : Value) :
    Tracks size (head.setValue entry value) cursor (pass.changed (head.setValue entry value)) := by
  have addresses := @UtHash.addresses_setValue _ _ head entry value
  have ahead (pointer : Option Nat) :
      (head.setValue entry value).ahead pointer = head.ahead pointer := by
    cases pointer with
    | none => rfl
    | some address => rw [UtHash.ahead, UtHash.ahead, addresses]
  rw [tracks.changed_of_subset (addresses ▸ List.Subset.refl _)]
  exact ⟨tracks.linked.setValue entry value, tracks.walks.setValue entry value, tracks.ended,
    addresses ▸ tracks.listed, by rw [ahead]; exact tracks.split, by rw [ahead]; exact tracks.distinct,
    tracks.old, tracks.last, tracks.count, by rw [ahead]; exact tracks.budget⟩

theorem delete (tracks : Tracks size head cursor pass) {entry : UtHandle Key}
    (member : entry ∈ head.handles) (elsewhere : cursor.curr ≠ some entry.address) :
    Tracks size (head.delete entry) (head.stepOver entry cursor)
      (pass.changed (head.delete entry)) := by
  have curr : (head.stepOver entry cursor).curr = cursor.curr := by
    rw [UtHash.stepOver]
    split <;> rfl
  have addresses := @UtHash.addresses_delete _ _ head entry
  have ahead := UtHash.ahead_delete tracks.linked tracks.walks member
  have kept : pass.kept.filter (· ∈ (head.delete entry).addresses) =
      pass.kept.filter (· != entry.address) := by
    apply List.filter_congr
    intro address inside
    rw [addresses, Bool.eq_iff_iff, decide_eq_true_iff, List.mem_filter]
    exact and_iff_right (tracks.listed.subset inside)
  have narrowed (list : List Nat) :
      list.filter (· ∈ pass.kept.filter (· != entry.address)) =
        (list.filter (· ∈ pass.kept)).filter (· != entry.address) := by
    rw [List.filter_filter]
    apply List.filter_congr
    intro address _
    rw [Bool.eq_iff_iff, decide_eq_true_iff, List.mem_filter, Bool.and_eq_true, decide_eq_true_iff,
      and_comm]
  have already (list : List Nat) :
      ((list.filter (· != entry.address)).filter (· ∈ pass.kept)).filter (· != entry.address) =
        (list.filter (· ∈ pass.kept)).filter (· != entry.address) := by
    simp only [List.filter_filter]
    apply List.filter_congr
    intro address _
    rw [Bool.and_comm (decide _), ← Bool.and_assoc, Bool.and_self]
  refine ⟨tracks.linked.delete member, (tracks.walks.delete_iff tracks.linked entry).mpr elsewhere,
    ?_, ?_, ?_, ?_, tracks.old, ?_, ?_, ?_⟩
  · rw [curr]
    intro none
    have ended := tracks.ended none
    rw [UtHash.stepOver, if_neg]
    · exact ended
    · rw [ended]
      simp
  · rw [changed, kept, addresses]
    exact tracks.listed.filter _
  · simp only [changed, kept, ahead, narrowed]
    rw [already, ← List.filter_append, tracks.split]
  · rw [ahead]
    exact tracks.distinct.sublist ((List.Sublist.refl _).append List.filter_sublist)
  · rw [curr]
    exact tracks.last
  · rw [curr]
    exact tracks.count
  · have shorter := List.length_filter_le (· != entry.address) (head.ahead cursor.temp)
    have budget := tracks.budget
    rw [ahead]
    exact Nat.le_trans (Nat.add_le_add_left shorter _) budget

theorem advance (tracks : Tracks size head cursor pass) {next : UtCursor}
    (advanced : head.advance cursor = some next) :
    Tracks size head next ((pass.changed head).moved next) := by
  have walks := tracks.walks.of_advance advanced
  rw [tracks.changed_of_subset (List.Subset.refl _)]
  obtain ⟨temp, after, rfl⟩ := Option.map_eq_some_iff.mp advanced
  cases pointer : cursor.temp with
  | none =>
      rw [pointer] at after walks
      obtain rfl := Option.some.inj after
      have split := tracks.split
      have distinct := tracks.distinct
      have budget := tracks.budget
      rw [pointer] at split distinct budget
      exact ⟨tracks.linked, walks, fun _ => rfl, tracks.listed, by simpa [moved] using split,
        by simpa [moved] using distinct, by simpa [moved] using tracks.old, by simp, by simp,
        by simpa [moved] using budget⟩
  | some address =>
      obtain ⟨handle, member, rfl⟩ := tracks.walks.temp address pointer
      have followed := tracks.linked.after_of_mem member
      rw [pointer, followed, Option.some.injEq] at after
      obtain rfl := after
      have ahead := UtHash.ahead_of_mem tracks.linked member
      have inside : handle.address ∈ head.addresses := List.mem_map_of_mem member
      have split := tracks.split
      have distinct := tracks.distinct
      have budget := tracks.budget
      rw [pointer, ahead] at split distinct budget
      rw [pointer] at walks
      have running : cursor.curr.isSome := by
        cases current : cursor.curr with
        | some _ => rfl
        | none =>
            have ended := tracks.ended current
            rw [pointer] at ended
            cases ended
      have count := tracks.count running
      have visited (temp : Option Nat) :
          (pass.moved { curr := some handle.address, temp }).visited =
            pass.visited ++ [handle.address] := rfl
      refine ⟨tracks.linked, walks, by simp, tracks.listed, ?_, ?_, ?_, ?_, ?_, ?_⟩
      · rw [visited, List.filter_append, List.append_assoc, ← List.filter_append]
        exact split
      · rw [visited, List.append_assoc]
        exact distinct
      · rw [visited]
        intro other seen
        rcases List.mem_append.mp seen with earlier | now
        · exact tracks.old other earlier
        · rw [List.mem_singleton.mp now]
          exact tracks.linked.lt_fresh inside
      · intro other same
        obtain rfl := Option.some.inj same
        rw [visited, List.getLast?_concat]
      · intro _
        rw [visited, List.length_append, ← count]
        rfl
      · rw [visited, List.length_append, List.length_singleton]
        rw [List.length_cons] at budget
        change _ + (head.ahead ((head.next handle).map UtHandle.address)).length ≤
          size + pass.additions
        omega

theorem more (tracks : Tracks size head cursor pass) : Tracks size head cursor pass.added where
  __ := tracks
  budget := Nat.le_succ_of_le tracks.budget

end UtPass.Tracks

/-- What has been in the table all the time is come by once, in the order of the table, which
is that of the additions; and each step uses up an element that was there at the begin or was
added. -/
structure UtPass.Complete (size : Nat) (head : UtHash Key Value) (valid : Bool)
    (pass : UtPass) : Prop where
  once : pass.visited.Nodup
  listed : pass.kept.Sublist head.addresses
  begun : pass.visited.filter (· ∈ pass.kept) <+: pass.kept
  visited : valid = false → pass.visited.filter (· ∈ pass.kept) = pass.kept
  ends : valid → pass.nexts < size + pass.additions

theorem UtPass.Tracks.complete {head : UtHash Key Value} {cursor : UtCursor} {pass : UtPass}
    {size : Nat} (tracks : Tracks size head cursor pass) :
    pass.Complete size head cursor.curr.isSome where
  once := tracks.distinct.sublist (List.sublist_append_left _ _)
  listed := tracks.listed
  begun := ⟨_, tracks.split⟩
  visited := by
    intro invalid
    have split := tracks.split
    rw [tracks.ended (Option.not_isSome_iff_eq_none.mp (Bool.not_eq_true _ ▸ invalid))] at split
    simpa [UtHash.ahead] using split
  ends := by
    intro running
    have count := tracks.count running
    have budget := tracks.budget
    omega

theorem UtPass.Tracks.current {head : UtHash Key Value} {cursor : UtCursor} {pass : UtPass}
    {size : Nat} (tracks : Tracks size head cursor pass) (running : cursor.curr.isSome) :
    ∃ element ∈ head.elements, pass.visited.getLast? = some element.address ∧
      head.read cursor = some (some element) := by
  obtain ⟨address, curr⟩ := Option.isSome_iff_exists.mp running
  obtain ⟨element, followed⟩ :=
    Option.isSome_iff_exists.mp ((UtHash.follow_isSome_iff address).mpr (tracks.walks.curr _ curr))
  have same : element.address = address := by simpa using List.find?_some followed
  refine ⟨element, List.mem_of_find?_eq_some followed, ?_, ?_⟩
  · rw [same]
    exact tracks.last address curr
  · rw [UtHash.read, curr]
    change (head.follow address).map some = _
    rw [followed]
    rfl

end PhpDriver.Data
