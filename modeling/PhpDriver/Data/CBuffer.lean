import Mathlib.Data.List.TakeDrop

namespace PhpDriver.Data

/-! A block of memory of a fixed size. Every access names the elements it touches, and an
access outside the block is undefined. -/

namespace CBuffer

section

variable {α : Type*} {buffer left middle right values : List α}

def load (buffer : List α) (offset count : Nat) : Option (List α) :=
  if offset + count ≤ buffer.length then some ((buffer.drop offset).take count) else none

def store (buffer : List α) (offset : Nat) (values : List α) : Option (List α) :=
  if offset + values.length ≤ buffer.length then
    some (buffer.take offset ++ (values ++ buffer.drop (offset + values.length)))
  else none

def memmove (buffer : List α) (target source count : Nat) : Option (List α) :=
  (load buffer source count).bind (store buffer target)

theorem length_of_store {offset : Nat} {after : List α}
    (stored : store buffer offset values = some after) : after.length = buffer.length := by
  rw [store] at stored
  split at stored
  · obtain rfl := Option.some.inj stored
    simp
    omega
  · cases stored

theorem length_of_memmove {target source count : Nat} {after : List α}
    (moved : memmove buffer target source count = some after) : after.length = buffer.length := by
  obtain ⟨_, _, stored⟩ := Option.bind_eq_some_iff.mp moved
  exact length_of_store stored

theorem store_eq_none {offset : Nat} (outside : buffer.length < offset + values.length) :
    store buffer offset values = none :=
  if_neg (by omega)

theorem load_append (left middle right : List α) :
    load (left ++ (middle ++ right)) left.length middle.length = some middle := by
  rw [load, if_pos (by simp), List.drop_left, List.take_left]

theorem store_append (same : middle.length = values.length) :
    store (left ++ (middle ++ right)) left.length values = some (left ++ (values ++ right)) := by
  rw [store, if_pos (by simp; omega), List.take_left, ← same, List.drop_length_add_append,
    List.drop_left]

theorem store_of_gap {gap : Nat} (room : gap + values.length ≤ right.length) :
    store (left ++ right) (left.length + gap) values =
      some (left ++ (right.take gap ++ (values ++ right.drop (gap + values.length)))) := by
  rw [store, if_pos (by simp; omega), List.take_length_add_append, Nat.add_assoc,
    List.drop_length_add_append, List.append_assoc]

theorem memmove_append {source target : Nat} {after : List α} (at_ : source = left.length)
    (stored : store (left ++ (middle ++ right)) target middle = some after) :
    memmove (left ++ (middle ++ right)) target source middle.length = some after := by
  rw [memmove, at_, load_append, Option.bind_some, stored]

/-- An element is inserted: what follows moves by one place, and one element behind it is
lost. -/
theorem memmove_store (value last : α) :
    (memmove (left ++ (middle ++ last :: right)) (left.length + 1) left.length
      middle.length).bind (fun moved => store moved left.length [value]) =
      some (left ++ (value :: (middle ++ right))) := by
  have room : 1 + middle.length ≤ (middle ++ last :: right).length := by
    simp
    omega
  have behind : (middle ++ last :: right).drop (1 + middle.length) = right := by
    rw [Nat.add_comm, List.drop_length_add_append]
    rfl
  have gap : ((middle ++ last :: right).take 1).length = [value].length := by
    rw [List.length_take]
    simp at room ⊢
    omega
  rw [memmove_append rfl (store_of_gap room), Option.bind_some, behind]
  exact store_append gap

end

end CBuffer

end PhpDriver.Data
