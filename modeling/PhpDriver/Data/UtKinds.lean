import Mathlib.Data.List.Pairwise
import PhpDriver.Data.Uthash

namespace PhpDriver.Data.UtHash

/-! Tables searched with a comparison that tells kinds of keys apart, and not always the
keys. No bucket ever gets two keys of one kind. -/

theorem utBucket_of_succ {first second : BitVec 32} {log2NumBuckets : Nat}
    (same : utBucket first (log2NumBuckets + 1) = utBucket second (log2NumBuckets + 1)) :
    utBucket first log2NumBuckets = utBucket second log2NumBuckets := by
  unfold utBucket at same ⊢
  have divides : 2 ^ log2NumBuckets ∣ 2 ^ (log2NumBuckets + 1) := ⟨2, rfl⟩
  rw [← Nat.mod_mod_of_dvd first.toNat divides, same, Nat.mod_mod_of_dvd second.toNat divides]

theorem log2NumBuckets_addToBucket (table : UtTable Key) (handle : UtHandle Key)
    (numItems : Nat) :
    (table.addToBucket handle numItems).log2NumBuckets = table.log2NumBuckets + 1 ∨
      (table.addToBucket handle numItems).log2NumBuckets = table.log2NumBuckets := by
  simp only [UtTable.addToBucket]
  split
  · exact Or.inl rfl
  · exact Or.inr rfl

theorem utBucket_of_addToBucket {table : UtTable Key} {handle : UtHandle Key} {numItems : Nat}
    {first second : BitVec 32}
    (same : utBucket first (table.addToBucket handle numItems).log2NumBuckets =
      utBucket second (table.addToBucket handle numItems).log2NumBuckets) :
    utBucket first table.log2NumBuckets = utBucket second table.log2NumBuckets := by
  cases log2NumBuckets_addToBucket table handle numItems with
  | inl grown =>
      rw [grown] at same
      exact utBucket_of_succ same
  | inr kept => rwa [kept] at same

variable {hash : Key → Option (BitVec 32)} {compare : Key → Key → Option Int}
variable {kind : Key → Kind} {head : UtHash Key Value}

structure Separated (hash : Key → Option (BitVec 32)) (kind : Key → Kind)
    (head : UtHash Key Value) : Prop where
  consistent : Consistent hash head
  apart : head.handles.Pairwise fun first second =>
    utBucket first.hashv head.table.log2NumBuckets =
      utBucket second.hashv head.table.log2NumBuckets →
    kind first.key ≠ kind second.key

/-- In the bucket of the key the comparison finds equal what is of its kind. -/
def DecidesKind (compare : Key → Key → Option Int) (kind : Key → Kind)
    (head : UtHash Key Value) (key : Key) (hashv : BitVec 32) : Prop :=
  ∀ handle ∈ head.handles,
    utBucket handle.hashv head.table.log2NumBuckets =
      utBucket hashv head.table.log2NumBuckets →
    ∃ order, compare handle.key key = some order ∧ (order = 0 ↔ kind handle.key = kind key)

theorem handle_cases_find {key : Key} {hashv : BitVec 32} (consistent : Consistent hash head)
    (hashed : hash key = some hashv) (decides : DecidesKind compare kind head key hashv) :
    (head.find hash compare key = some none ∧ ∀ handle ∈ head.handles,
      utBucket handle.hashv head.table.log2NumBuckets =
        utBucket hashv head.table.log2NumBuckets → kind handle.key ≠ kind key) ∨
    ∃ handle ∈ head.handles, head.find hash compare key = some (some handle) ∧
      utBucket handle.hashv head.table.log2NumBuckets =
        utBucket hashv head.table.log2NumBuckets ∧ kind handle.key = kind key := by
  unfold find
  cases elements : head.elements with
  | nil => exact Or.inl ⟨rfl, by simp [handles, elements]⟩
  | cons first rest =>
      have hold := consistent.table (by simp [elements])
      simp only [List.isEmpty_cons, Bool.false_eq_true, if_false, hashed, Option.bind_eq_bind,
        Option.bind_some]
      have inChain := hold.mem_chain_iff hashv
      have defined_ (handle : UtHandle Key)
          (member : handle ∈ (head.table.buckets.getD
            (utBucket hashv head.table.log2NumBuckets) {}).chain) :
          (compare handle.key key).isSome := by
        have there := (inChain handle).mp member
        obtain ⟨order, compared, _⟩ := decides handle there.1 there.2
        simp [compared]
      cases findInBucket_cases defined_ with
      | inl missed =>
          refine Or.inl ⟨missed.1, ?_⟩
          intro handle member same
          obtain ⟨order, compared, zero⟩ := decides handle member same
          intro sameKind
          apply missed.2 handle ((inChain handle).mpr ⟨member, same⟩)
          rw [compared, zero.mpr sameKind]
      | inr there =>
          obtain ⟨handle, member, found, equal⟩ := there
          have place := (inChain handle).mp member
          obtain ⟨order, compared, zero⟩ := decides handle place.1 place.2
          rw [compared, Option.some.injEq] at equal
          exact Or.inr ⟨handle, place.1, found, place.2, zero.mp equal⟩

namespace Separated

theorem empty : Separated hash kind ({} : UtHash Key Value) where
  consistent := .empty
  apart := .nil

theorem eq_of_kind (separated : Separated hash kind head) {first second : UtHandle Key}
    (firstIn : first ∈ head.handles) (secondIn : second ∈ head.handles)
    (bucket : utBucket first.hashv head.table.log2NumBuckets =
      utBucket second.hashv head.table.log2NumBuckets)
    (same : kind first.key = kind second.key) : first = second := by
  have symmetric : Std.Symm fun first second : UtHandle Key =>
      utBucket first.hashv head.table.log2NumBuckets =
        utBucket second.hashv head.table.log2NumBuckets →
      kind first.key ≠ kind second.key :=
    ⟨fun _ _ apart bucket same => apart bucket.symm same.symm⟩
  by_contra differ
  exact separated.apart.forall firstIn secondIn differ bucket same

theorem add (separated : Separated hash kind head) {key : Key} {value : Value}
    {hashv : BitVec 32} {after : UtHash Key Value} (hashed : hash key = some hashv)
    (new : ∀ handle ∈ head.handles,
      utBucket handle.hashv head.table.log2NumBuckets =
        utBucket hashv head.table.log2NumBuckets → kind handle.key ≠ kind key)
    (added : head.add hash key value = some after) : Separated hash kind after := by
  obtain ⟨same, grown, consistent, elements⟩ := separated.consistent.add hashed value
  rw [added, Option.some.injEq] at grown
  obtain rfl := grown
  refine ⟨consistent, ?_⟩
  have handlesEq : after.handles = head.handles ++ [{ address := head.fresh, key, hashv }] := by
    rw [handles, elements, List.map_append]
    rfl
  unfold UtHash.add at added
  rw [hashed, Option.bind_eq_bind, Option.bind_some] at added
  obtain rfl := Option.some.inj added
  rw [handlesEq]
  cases empty : head.elements with
  | nil =>
      have none : head.handles = [] := by
        rw [handles, empty]
        rfl
      rw [none]
      exact List.pairwise_singleton _ _
  | cons first rest =>
      simp only [List.isEmpty_cons, Bool.false_eq_true, if_false]
      rw [List.pairwise_append]
      refine ⟨separated.apart.imp fun apart same => apart (utBucket_of_addToBucket same),
        List.pairwise_singleton _ _, ?_⟩
      intro handle member last isNew same
      rw [List.mem_singleton.mp isNew] at same ⊢
      exact new handle member (utBucket_of_addToBucket same)

theorem delete (separated : Separated hash kind head) {handle : UtHandle Key}
    (member : handle ∈ head.handles) : Separated hash kind (head.delete handle) where
  consistent := separated.consistent.delete member
  apart := by
    rw [handles_delete]
    cases single : decide (head.elements.length = 1) with
    | false =>
        rw [decide_eq_false_iff_not] at single
        simp only [UtHash.delete, if_neg single]
        exact separated.apart.filter _
    | true =>
        rw [decide_eq_true_eq] at single
        obtain ⟨element, only⟩ := List.length_eq_one_iff.mp single
        have short : (head.handles.filter (·.address != handle.address)).length ≤ 1 := by
          apply Nat.le_trans (List.length_filter_le _ _)
          rw [handles, only]
          exact Nat.le_refl 1
        cases rest : head.handles.filter (·.address != handle.address) with
        | nil => exact .nil
        | cons first others =>
            rw [rest, List.length_cons] at short
            have none : others = [] := List.eq_nil_of_length_eq_zero (by omega)
            rw [none]
            exact List.pairwise_singleton _ _

theorem setValue (separated : Separated hash kind head) (handle : UtHandle Key)
    (value : Value) : Separated hash kind (head.setValue handle value) where
  consistent := separated.consistent.setValue handle value
  apart := by
    rw [handles_setValue]
    exact separated.apart

end Separated

end PhpDriver.Data.UtHash
