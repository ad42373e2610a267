import Mathlib.Data.List.Induction
import Mathlib.Data.List.Nodup
import Mathlib.Logic.Function.Basic

namespace PhpDriver.Data

/-! Doubly linked lists in a memory. A null pointer ends a list on either side. -/

structure Pointers (Address : Type) where
  prev : Option Address
  next : Option Address
deriving DecidableEq

section

variable {Address : Type} {memory other : Address → Option (Pointers Address)}
variable {before after : Option Address} {addresses : List Address}

/-- The nodes at the addresses point to each other in this order, the first of them back to
`before` and the last of them on to `after`. -/
def Chained (memory : Address → Option (Pointers Address)) (after : Option Address) :
    Option Address → List Address → Prop
  | _, [] => True
  | before, address :: rest =>
      memory address = some { prev := before, next := rest.head?.or after } ∧
        Chained memory after (some address) rest

theorem chained_append {first second : List Address} :
    Chained memory after before (first ++ second) ↔
      Chained memory (second.head?.or after) before first ∧
        Chained memory after (first.getLast?.or before) second := by
  induction first generalizing before with
  | nil => simp [Chained]
  | cons address first ih =>
      have last : (address :: first).getLast?.or before = first.getLast?.or (some address) := by
        rw [List.getLast?_cons]
        cases first.getLast? <;> rfl
      rw [List.cons_append, Chained, Chained, ih, last, List.head?_append, Option.or_assoc,
        and_assoc]

namespace Chained

theorem congr (chained : Chained memory after before addresses)
    (same : ∀ address ∈ addresses, other address = memory address) :
    Chained other after before addresses := by
  induction addresses generalizing before with
  | nil => trivial
  | cons address rest ih =>
      refine ⟨?_, ih chained.2 fun next member => same next (List.mem_cons_of_mem _ member)⟩
      rw [same address List.mem_cons_self]
      exact chained.1

theorem isSome (chained : Chained memory after before addresses) {address : Address}
    (member : address ∈ addresses) : (memory address).isSome := by
  obtain ⟨first, second, rfl⟩ := List.append_of_mem member
  rw [chained_append] at chained
  rw [chained.2.1]
  rfl

/-- No address comes twice, as it would have the pointers of both places. -/
theorem nodup (chained : Chained memory after none addresses) : addresses.Nodup := by
  induction addresses using List.reverseRecOn generalizing after with
  | nil => exact List.nodup_nil
  | append_singleton addresses address ih =>
      rw [chained_append] at chained
      have rest := ih chained.1
      rw [List.nodup_append']
      refine ⟨rest, List.nodup_singleton _, ?_⟩
      intro again member single
      obtain rfl := List.mem_singleton.mp single
      obtain ⟨first, second, rfl⟩ := List.append_of_mem member
      have there := (chained_append.mp chained.1).2.1
      -- both places say what comes before the address
      rw [chained.2.1, Option.some.injEq, Pointers.mk.injEq, Option.or_none, Option.or_none]
        at there
      cases first.eq_nil_or_concat with
      | inl empty => simp [empty] at there
      | inr concat =>
          obtain ⟨_, last, rfl⟩ := concat
          have inSecond : last ∈ again :: second := by
            apply List.mem_of_getLast?
            rw [List.getLast?_cons]
            simpa [List.getLast?_cons] using there.1
          exact List.disjoint_of_nodup_append rest (by simp) inSecond

end Chained

end

section

variable {Address : Type} [DecidableEq Address]
variable {memory other : Address → Option (Pointers Address)}
variable {before after : Option Address} {addresses : List Address}

def setPrev (memory : Address → Option (Pointers Address)) (pointer prev : Option Address)
    (address : Address) : Option (Pointers Address) :=
  if pointer = some address then (memory address).map ({ · with prev }) else memory address

def setNext (memory : Address → Option (Pointers Address)) (pointer next : Option Address)
    (address : Address) : Option (Pointers Address) :=
  if pointer = some address then (memory address).map ({ · with next }) else memory address

theorem setPrev_of_ne {pointer prev : Option Address} {address : Address}
    (other : pointer ≠ some address) : setPrev memory pointer prev address = memory address :=
  if_neg other

theorem setNext_of_ne {pointer next : Option Address} {address : Address}
    (other : pointer ≠ some address) : setNext memory pointer next address = memory address :=
  if_neg other

namespace Chained

theorem setPrev_of_notMem (chained : Chained memory after before addresses)
    {pointer prev : Option Address} (outside : ∀ address ∈ addresses, pointer ≠ some address) :
    Chained (setPrev memory pointer prev) after before addresses :=
  chained.congr fun address member => setPrev_of_ne (outside address member)

theorem setNext_of_notMem (chained : Chained memory after before addresses)
    {pointer next : Option Address} (outside : ∀ address ∈ addresses, pointer ≠ some address) :
    Chained (setNext memory pointer next) after before addresses :=
  chained.congr fun address member => setNext_of_ne (outside address member)

theorem setPrev_head (chained : Chained memory after before addresses)
    (nodup : addresses.Nodup) (prev : Option Address) :
    Chained (setPrev memory addresses.head? prev) after prev addresses := by
  cases addresses with
  | nil => trivial
  | cons address rest =>
      refine ⟨?_, chained.2.setPrev_of_notMem ?_⟩
      · simp [setPrev, chained.1]
      · rintro other member same
        obtain rfl := Option.some.inj same
        exact (List.nodup_cons.mp nodup).1 member

theorem setNext_last (chained : Chained memory after before addresses)
    (nodup : addresses.Nodup) (next : Option Address) :
    Chained (setNext memory addresses.getLast? next) next before addresses := by
  cases addresses.eq_nil_or_concat with
  | inl empty =>
      rw [empty]
      trivial
  | inr concat =>
      obtain ⟨first, last, rfl⟩ := concat
      rw [List.concat_eq_append] at chained nodup ⊢
      rw [chained_append] at chained ⊢
      rw [List.getLast?_append, List.getLast?_singleton, Option.some_or]
      refine ⟨chained.1.setNext_of_notMem ?_, ?_, trivial⟩
      · rintro other member same
        obtain rfl := Option.some.inj same
        exact List.disjoint_of_nodup_append nodup member List.mem_cons_self
      · simp [setNext, chained.2.1]

theorem pushBack (chained : Chained memory none before addresses) (nodup : addresses.Nodup)
    {address : Address}
    (added : other address = some { prev := addresses.getLast?.or before, next := none })
    (kept : ∀ old ∈ addresses,
      other old = setNext memory addresses.getLast? (some address) old) :
    Chained other none before (addresses ++ [address]) := by
  rw [chained_append]
  exact ⟨(chained.setNext_last nodup (some address)).congr kept, added, trivial⟩

theorem pushFront (chained : Chained memory after none addresses) (nodup : addresses.Nodup)
    {address : Address}
    (added : other address = some { prev := none, next := addresses.head?.or after })
    (kept : ∀ old ∈ addresses,
      other old = setPrev memory addresses.head? (some address) old) :
    Chained other after none (address :: addresses) :=
  ⟨added, (chained.setPrev_head nodup (some address)).congr kept⟩

theorem unlink {first second : List Address} {address : Address}
    (chained : Chained memory after before (first ++ address :: second))
    (nodup : (first ++ address :: second).Nodup) :
    Chained (setPrev (setNext memory first.getLast? (second.head?.or after)) second.head?
      (first.getLast?.or before)) after before (first ++ second) := by
  rw [chained_append] at chained
  rw [List.nodup_append'] at nodup
  obtain ⟨firstNodup, restNodup, apart⟩ := nodup
  have secondNodup := (List.nodup_cons.mp restNodup).2
  rw [chained_append]
  constructor
  · refine (chained.1.setNext_last firstNodup _).setPrev_of_notMem ?_
    intro other member isHead
    exact apart member (List.mem_cons_of_mem _ (List.mem_of_head? isHead))
  · have kept : Chained (setNext memory first.getLast? (second.head?.or after)) after
        (some address) second := by
      refine chained.2.2.setNext_of_notMem ?_
      intro other member isLast
      exact apart (List.mem_of_getLast? isLast) (List.mem_cons_of_mem _ member)
    exact kept.setPrev_head secondNodup _

end Chained

end

end PhpDriver.Data
