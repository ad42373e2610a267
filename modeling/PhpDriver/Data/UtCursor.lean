import PhpDriver.Data.Uthash

namespace PhpDriver.Data

/-! Two pointers into a `uthash` table that walk along it while elements come and go: the
current element and the one after it. Following a pointer to an element that has been
removed is undefined, which `none` stands for. -/

structure UtCursor where
  curr : Option Nat := none
  temp : Option Nat := none
deriving DecidableEq

namespace UtHash

variable (head : UtHash Key Value)

def follow (address : Nat) : Option (UtElement Key Value) :=
  head.elements.find? (·.address == address)

def first : Option (UtHandle Key) :=
  head.handles.head?

def rewind : UtCursor where
  curr := head.first.map UtHandle.address
  temp := (head.first.bind head.next).map UtHandle.address

/-- The element after, none when there is no element to begin with. -/
def after : Option Nat → Option (Option Nat)
  | none => some none
  | some address =>
      (head.follow address).map fun element => (head.next element.toUtHandle).map UtHandle.address

def advance (cursor : UtCursor) : Option UtCursor :=
  (head.after cursor.temp).map fun temp => { curr := cursor.temp, temp }

def read (cursor : UtCursor) : Option (Option (UtElement Key Value)) :=
  match cursor.curr with
  | none => some none
  | some address => (head.follow address).map some

def stepOver (entry : UtHandle Key) (cursor : UtCursor) : UtCursor :=
  if cursor.temp = some entry.address then
    { cursor with temp := (head.next entry).map UtHandle.address }
  else cursor

/-- A pointer is null or points to an element that is in the table. -/
def Points (pointer : Option Nat) : Prop :=
  ∀ address, pointer = some address → ∃ handle ∈ head.handles, handle.address = address

structure Walks (cursor : UtCursor) : Prop where
  curr : head.Points cursor.curr
  temp : head.Points cursor.temp

variable {head} {hash : Key → Option (BitVec 32)}

theorem Points.null : head.Points none := by
  intro address isNull
  cases isNull

theorem Points.of_mem {found : Option (UtHandle Key)}
    (inside : ∀ handle, found = some handle → handle ∈ head.handles) :
    head.Points (found.map UtHandle.address) := by
  intro address points
  obtain ⟨handle, same, rfl⟩ := Option.map_eq_some_iff.mp points
  exact ⟨handle, inside handle same, rfl⟩

theorem Points.mono {grown : UtHash Key Value}
    (includes : ∀ handle ∈ head.handles, handle ∈ grown.handles) {pointer : Option Nat}
    (points : head.Points pointer) : grown.Points pointer := by
  intro address same
  obtain ⟨handle, member, equal⟩ := points address same
  exact ⟨handle, includes handle member, equal⟩

theorem Walks.mono {grown : UtHash Key Value}
    (includes : ∀ handle ∈ head.handles, handle ∈ grown.handles) {cursor : UtCursor}
    (walks : head.Walks cursor) : grown.Walks cursor :=
  ⟨walks.curr.mono includes, walks.temp.mono includes⟩

theorem Walks.start : head.Walks {} :=
  ⟨.null, .null⟩

/-! What comes next is in the table, and is another element. -/

theorem next_mem {entry found : UtHandle Key} (next : head.next entry = some found) :
    found ∈ head.handles := by
  have member := List.mem_of_mem_drop (List.mem_of_head? next)
  exact (List.dropWhile_sublist _).subset member

theorem next_address_ne (linked : Linked head) {entry found : UtHandle Key}
    (next : head.next entry = some found) : found.address ≠ entry.address := by
  have nodup := linked.nodup.sublist
    ((List.dropWhile_sublist (·.address != entry.address)).map UtHandle.address)
  have start (head_ : UtHandle Key)
      (same : (head.handles.dropWhile (·.address != entry.address)).head? = some head_) :
      head_.address = entry.address := by
    have stops := List.head?_dropWhile_not (·.address != entry.address) head.handles
    rw [same] at stops
    simpa using stops
  rw [UtHash.next] at next
  cases rest : head.handles.dropWhile (·.address != entry.address) with
  | nil => simp [rest] at next
  | cons other others =>
      rw [rest] at next nodup start
      rw [← start other rfl]
      intro same
      rw [List.map_cons, List.nodup_cons] at nodup
      have member : found ∈ others := List.mem_of_head? next
      exact nodup.1 (same ▸ List.mem_map_of_mem member)

theorem follow_isSome_iff (address : Nat) :
    (head.follow address).isSome ↔ ∃ handle ∈ head.handles, handle.address = address := by
  simp [follow, handles, List.find?_isSome]

theorem Points.after {pointer : Option Nat} (points : head.Points pointer) :
    ∃ next, head.after pointer = some next ∧ head.Points next := by
  cases pointer with
  | none => exact ⟨none, rfl, .null⟩
  | some address =>
      obtain ⟨element, followed⟩ :=
        Option.isSome_iff_exists.mp ((follow_isSome_iff address).mpr (points address rfl))
      exact ⟨_, by rw [UtHash.after, followed, Option.map_some],
        .of_mem fun handle next => next_mem next⟩

theorem rewind_walks : head.Walks head.rewind where
  curr := .of_mem fun handle first => List.mem_of_head? first
  temp := .of_mem fun handle found => by
    obtain ⟨first, _, next⟩ := Option.bind_eq_some_iff.mp found
    exact next_mem next

theorem Walks.advance {cursor : UtCursor} (walks : head.Walks cursor) :
    ∃ next, head.advance cursor = some next ∧ head.Walks next := by
  obtain ⟨temp, after, points⟩ := walks.temp.after
  exact ⟨_, by rw [UtHash.advance, after, Option.map_some], walks.temp, points⟩

theorem Walks.of_advance {cursor next : UtCursor} (walks : head.Walks cursor)
    (advanced : head.advance cursor = some next) : head.Walks next := by
  obtain ⟨reached, same, walks⟩ := walks.advance
  exact Option.some.inj (advanced.symm.trans same) ▸ walks

theorem Walks.read {cursor : UtCursor} (walks : head.Walks cursor) :
    (head.read cursor).isSome := by
  rw [UtHash.read]
  cases curr : cursor.curr with
  | none => rfl
  | some address =>
      have followed := (follow_isSome_iff address).mpr (walks.curr address curr)
      rw [Option.isSome_map, followed]

theorem Walks.add {key : Key} {value : Value} {grown : UtHash Key Value}
    (added : head.add hash key value = some grown) {cursor : UtCursor}
    (walks : head.Walks cursor) : grown.Walks cursor := by
  obtain ⟨_, _, handlesEq⟩ := handles_add added
  apply walks.mono
  intro handle member
  rw [handlesEq]
  exact List.mem_append_left _ member

theorem Walks.setValue {cursor : UtCursor} (walks : head.Walks cursor) (entry : UtHandle Key)
    (value : Value) : (head.setValue entry value).Walks cursor := by
  apply walks.mono
  intro handle member
  rwa [handles_setValue]

theorem Points.delete {pointer : Option Nat} (points : head.Points pointer)
    {entry : UtHandle Key} (elsewhere : pointer ≠ some entry.address) :
    (head.delete entry).Points pointer := by
  intro address same
  obtain ⟨handle, member, rfl⟩ := points address same
  exact ⟨handle, mem_handles_delete.mpr ⟨member, fun equal => elsewhere (equal ▸ same)⟩, rfl⟩

theorem stepOver_temp_ne (linked : Linked head) (entry : UtHandle Key) (cursor : UtCursor) :
    (head.stepOver entry cursor).temp ≠ some entry.address := by
  rw [stepOver]
  split
  · intro same
    obtain ⟨found, next, equal⟩ := Option.map_eq_some_iff.mp same
    exact next_address_ne linked next equal
  · assumption

/-- Removing an element does no harm exactly when it is not the current one. -/
theorem Walks.delete_iff (linked : Linked head) {cursor : UtCursor} (walks : head.Walks cursor)
    (entry : UtHandle Key) :
    (head.delete entry).Walks (head.stepOver entry cursor) ↔
      cursor.curr ≠ some entry.address := by
  have curr : (head.stepOver entry cursor).curr = cursor.curr := by
    rw [stepOver]
    split <;> rfl
  constructor
  · intro after same
    obtain ⟨handle, member, equal⟩ := after.curr entry.address (curr.trans same)
    exact (mem_handles_delete.mp member).2 equal
  · intro elsewhere
    refine ⟨curr ▸ walks.curr.delete elsewhere, ?_⟩
    have temp : head.Points (head.stepOver entry cursor).temp := by
      rw [stepOver]
      split
      · exact .of_mem fun handle next => next_mem next
      · exact walks.temp
    exact temp.delete (stepOver_temp_ne linked entry cursor)

end UtHash

end PhpDriver.Data
