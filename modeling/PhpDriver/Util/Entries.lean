import PhpDriver.Util.Hash

namespace PhpDriver

open Data

/-! The tables of the sets and maps that can be built. All their keys are of one kind: the
comparison tells them apart, or it tells none apart and the buckets do. -/

theorem Zval.inheritsCompare_congr {first second : Zval} (same : first.meaning = second.meaning) :
    first.inheritsCompare = second.inheritsCompare := by
  have normal (value : Scalar) :
      (Zval.scalar value.normal).inheritsCompare = (Zval.scalar value).inheritsCompare := by
    cases value <;> rfl
  cases first with
  | scalar first =>
      cases second with
      | scalar second =>
          simp only [Zval.meaning, CassValue.scalar.injEq] at same
          rw [← normal first, same, normal second]
      | _ => simp [Zval.meaning] at same
  | _ =>
      cases second with
      | scalar second => simp [Zval.meaning] at same
      | _ => simp_all [Zval.meaning, Zval.inheritsCompare]

private theorem sameKind_scalar {type : ScalarType} {first second : Scalar}
    (firstHolds : type.isInstance first) (secondHolds : type.isInstance second) :
    (Zval.scalar first).inheritsCompare = (Zval.scalar second).inheritsCompare ∧
      ((Zval.scalar second).inheritsCompare →
        valueCompare (.scalar first) (.scalar second) = some 0) := by
  cases type.instance_of firstHolds <;> cases ScalarType.instance_of secondHolds <;>
    first
      | exact ⟨rfl, fun _ => rfl⟩
      | exact ⟨rfl, fun inherits => by cases inherits⟩

structure Fits (type : CassType) (key : Zval) : Prop where
  nonnull : key.isNull = false
  accepted : validateObject key type = .accepted

variable {zendHash : List UInt8 → BitVec 32}

theorem Fits.scalar {type : CassType} {key : Zval} (fits : Fits type key)
    (hashed : (valueHash zendHash key).isSome) :
    ∃ scalarType value, type = .scalar scalarType ∧ key = .scalar value ∧
      scalarType.isInstance value := by
  have accepted := fits.accepted
  cases key with
  | null => cases fits.nonnull
  | scalar value =>
      obtain ⟨scalarType, rfl, holds⟩ := (validateObject_scalar_iff value type).mp accepted
      exact ⟨scalarType, value, rfl, rfl, holds⟩
  | _ => simp [valueHash, hashValue] at hashed

theorem Fits.sameKind {type : CassType} {first second : Zval} (firstFits : Fits type first)
    (secondFits : Fits type second) (firstHashed : (valueHash zendHash first).isSome)
    (secondHashed : (valueHash zendHash second).isSome) :
    first.inheritsCompare = second.inheritsCompare ∧
      (second.inheritsCompare → valueCompare first second = some 0) := by
  obtain ⟨scalarType, first, rfl, rfl, firstHolds⟩ := firstFits.scalar firstHashed
  obtain ⟨_, second, same, rfl, secondHolds⟩ := secondFits.scalar secondHashed
  obtain rfl := CassType.scalar.inj same
  exact sameKind_scalar firstHolds secondHolds

structure Apart (zendHash : List UInt8 → BitVec 32) (first second : Zval) : Prop where
  differ : first.meaning ≠ second.meaning
  buckets : second.inheritsCompare → ∀ firstHash secondHash,
    valueHash zendHash first = some firstHash → valueHash zendHash second = some secondHash →
    utBucket firstHash utInitialLog2 ≠ utBucket secondHash utInitialLog2

theorem Apart.congr {first second otherFirst otherSecond : Zval}
    (apart : Apart zendHash first second) (firstSame : otherFirst.meaning = first.meaning)
    (secondSame : otherSecond.meaning = second.meaning) :
    Apart zendHash otherFirst otherSecond where
  differ := by
    rw [firstSame, secondSame]
    exact apart.differ
  buckets := by
    rw [Zval.inheritsCompare_congr secondSame, valueHash_congr firstSame,
      valueHash_congr secondSame]
    exact apart.buckets

structure DistinctKeys (zendHash : List UInt8 → BitVec 32) (type : CassType)
    (keys : List Zval) : Prop where
  fits : ∀ key ∈ keys, Fits type key
  hashed : ∀ key ∈ keys, (valueHash zendHash key).isSome
  apart : keys.Pairwise (Apart zendHash)

theorem DistinctKeys.congr {type otherType : CassType} {keys others : List Zval}
    (distinct : DistinctKeys zendHash type keys)
    (same : others.map Zval.meaning = keys.map Zval.meaning)
    (accepted : ∀ other ∈ others, validateObject other otherType = .accepted) :
    DistinctKeys zendHash otherType others := by
  have twin (other : Zval) (member : other ∈ others) :
      ∃ key ∈ keys, key.meaning = other.meaning := by
    rw [← List.mem_map, ← same]
    exact List.mem_map_of_mem member
  refine ⟨fun other member => ⟨?_, accepted other member⟩, fun other member => ?_, ?_⟩
  · obtain ⟨key, inKeys, equal⟩ := twin other member
    have nonnull := (distinct.fits key inKeys).nonnull
    rw [← Bool.not_eq_true, ← Zval.meaning_eq_null_iff] at nonnull ⊢
    rwa [← equal]
  · obtain ⟨key, inKeys, equal⟩ := twin other member
    rw [← valueHash_congr equal]
    exact distinct.hashed key inKeys
  · have apart := distinct.apart
    clear distinct accepted twin
    induction others generalizing keys with
    | nil => exact .nil
    | cons other others ih =>
        cases keys with
        | nil => cases same
        | cons key keys =>
            obtain ⟨head, tail⟩ := List.cons.inj same
            rw [List.pairwise_cons] at apart ⊢
            refine ⟨?_, ih tail apart.2⟩
            intro later member
            have inKeys : later.meaning ∈ keys.map Zval.meaning := by
              rw [← tail]
              exact List.mem_map_of_mem member
            obtain ⟨laterKey, inKeys, equal⟩ := List.mem_map.mp inKeys
            exact (apart.1 laterKey inKeys).congr head equal.symm

theorem hashed_of_hashAddZval {head after : UtHash Zval Value} {key : Zval} {value : Value}
    (added : hashAddZval zendHash head key value = some after) :
    (valueHash zendHash key).isSome := by
  rw [hashAddZval, UtHash.add, Option.bind_eq_bind, Option.bind_eq_some_iff] at added
  obtain ⟨hashv, hashed, _⟩ := added
  rw [hashed]
  rfl

structure WellBuilt (zendHash : List UInt8 → BitVec 32) (type : CassType)
    (head : UtHash Zval Value) : Prop where
  consistent : UtHash.Consistent (valueHash zendHash) head
  fits : ∀ handle ∈ head.handles, Fits type handle.key
  apart : head.handles.Pairwise fun first second => Apart zendHash first.key second.key
  small : ∀ handle ∈ head.handles, handle.key.inheritsCompare →
    head.table.log2NumBuckets = utInitialLog2

namespace WellBuilt

variable {type : CassType} {head : UtHash Zval Value}

theorem empty : WellBuilt zendHash type ({} : UtHash Zval Value) where
  consistent := .empty
  fits := by simp [UtHash.handles]
  apart := .nil
  small := by simp [UtHash.handles]

theorem hashed (wellBuilt : WellBuilt zendHash type head) {handle : UtHandle Zval}
    (member : handle ∈ head.handles) : (valueHash zendHash handle.key).isSome := by
  rw [wellBuilt.consistent.hashed handle member]
  rfl

theorem distinctKeys (wellBuilt : WellBuilt zendHash type head) :
    DistinctKeys zendHash type (head.elements.map (·.key)) := by
  have keys : head.elements.map (·.key) = head.handles.map UtHandle.key := by
    rw [UtHash.handles, List.map_map]
    rfl
  rw [keys]
  refine ⟨?_, ?_, List.pairwise_map.mpr wellBuilt.apart⟩
  · intro key member
    obtain ⟨handle, inHandles, rfl⟩ := List.mem_map.mp member
    exact wellBuilt.fits handle inHandles
  · intro key member
    obtain ⟨handle, inHandles, rfl⟩ := List.mem_map.mp member
    exact wellBuilt.hashed inHandles

/-- The search misses a key exactly when the key is apart from all those there are. -/
theorem find (wellBuilt : WellBuilt zendHash type head) {key : Zval} (fits : Fits type key)
    (hashed : (valueHash zendHash key).isSome) :
    (hashFindZval zendHash head key).isSome ∧
      (hashFindZval zendHash head key = some none ↔
        ∀ handle ∈ head.handles, Apart zendHash handle.key key) := by
  cases inherits : key.inheritsCompare with
  | false =>
      have distinguished : Distinguished zendHash head key :=
        ⟨fun _ => hashed, by simp [inherits]⟩
      obtain ⟨missing, all⟩ | ⟨handle, member, found, same⟩ :=
        wellBuilt.consistent.find_cases (distinguished.finds wellBuilt.consistent)
      · refine ⟨by simp [hashFindZval, missing], fun _ handle member => ?_, fun _ => missing⟩
        exact ⟨all handle member, by simp [inherits]⟩
      · refine ⟨by simp [hashFindZval, found], fun missing => ?_, fun apart => ?_⟩
        · rw [hashFindZval, found] at missing
          cases missing
        · exact absurd same (apart handle member).differ
  | true =>
      obtain ⟨hashv, keyHash⟩ := Option.isSome_iff_exists.mp hashed
      have kind (handle : UtHandle Zval) (member : handle ∈ head.handles) :=
        (wellBuilt.fits handle member).sameKind fits (wellBuilt.hashed member) hashed
      obtain ⟨some_, missing⟩ := @UtHash.Consistent.find_blind _ _ _ valueCompare head
        wellBuilt.consistent key hashv keyHash fun handle member =>
          (kind handle member).2 inherits
      refine ⟨some_, missing.trans (forall₂_congr fun handle member => ?_)⟩
      have small := wellBuilt.small handle member ((kind handle member).1.trans inherits)
      have handleHash := wellBuilt.consistent.hashed handle member
      rw [small]
      constructor
      · intro buckets
        refine ⟨fun same => buckets ?_, fun _ first second firstHash secondHash => ?_⟩
        · have hashes := @valueHash_congr zendHash _ _ same
          rw [handleHash, keyHash, Option.some.injEq] at hashes
          rw [hashes]
        · rw [handleHash, Option.some.injEq] at firstHash
          rw [keyHash, Option.some.injEq] at secondHash
          rwa [← firstHash, ← secondHash]
      · intro apart
        exact apart.buckets inherits _ _ handleHash keyHash

theorem add (wellBuilt : WellBuilt zendHash type head) {key : Zval} (fits : Fits type key)
    (hashed : (valueHash zendHash key).isSome)
    (apart : ∀ handle ∈ head.handles, Apart zendHash handle.key key) (value : Value) :
    ∃ after address hashv, hashAddZval zendHash head key value = some after ∧
      WellBuilt zendHash type after ∧
      after.elements = head.elements ++ [{ address := address, key, hashv, value }] := by
  obtain ⟨hashv, keyHash⟩ := Option.isSome_iff_exists.mp hashed
  obtain ⟨after, added, consistent, elements⟩ := wellBuilt.consistent.add keyHash value
  have handles : after.handles = head.handles ++ [{ address := head.fresh, key, hashv }] := by
    rw [UtHash.handles, elements, List.map_append]
    rfl
  have kind (handle : UtHandle Zval) (member : handle ∈ head.handles) :
      handle.key.inheritsCompare = key.inheritsCompare :=
    ((wellBuilt.fits handle member).sameKind fits (wellBuilt.hashed member) hashed).1
  have small (inherits : key.inheritsCompare) :
      after.table.log2NumBuckets = utInitialLog2 := by
    have alone (handle : UtHandle Zval) (member : handle ∈ head.handles) :
        utBucket handle.hashv head.table.log2NumBuckets ≠
          utBucket hashv head.table.log2NumBuckets := by
      rw [wellBuilt.small handle member ((kind handle member).trans inherits)]
      exact (apart handle member).buckets inherits _ _
        (wellBuilt.consistent.hashed handle member) keyHash
    rw [UtHash.log2NumBuckets_add wellBuilt.consistent keyHash added alone]
    split
    · rfl
    · rename_i present
      obtain ⟨element, member⟩ := List.exists_mem_of_ne_nil head.elements (by simpa using present)
      have inHandles : element.toUtHandle ∈ head.handles := List.mem_map_of_mem member
      exact wellBuilt.small _ inHandles ((kind _ inHandles).trans inherits)
  refine ⟨after, _, _, added, ⟨consistent, ?_, ?_, ?_⟩, elements⟩
  · intro handle member
    rw [handles, List.mem_append, List.mem_singleton] at member
    rcases member with old | rfl
    · exact wellBuilt.fits handle old
    · exact fits
  · rw [handles, List.pairwise_append]
    refine ⟨wellBuilt.apart, List.pairwise_singleton _ _, ?_⟩
    intro handle member new isNew
    rw [List.mem_singleton.mp isNew]
    exact apart handle member
  · intro handle member inherits
    rw [handles, List.mem_append, List.mem_singleton] at member
    rcases member with old | rfl
    · exact small ((kind handle old).symm.trans inherits)
    · exact small inherits

theorem insert (wellBuilt : WellBuilt zendHash type head) {key : Zval} (fits : Fits type key)
    {value : Value} {after : UtHash Zval Value}
    (missing : hashFindZval zendHash head key = some none)
    (added : hashAddZval zendHash head key value = some after) :
    WellBuilt zendHash type after ∧ ∃ address hashv,
      after.elements = head.elements ++ [{ address := address, key, hashv, value }] := by
  have hashed := hashed_of_hashAddZval added
  have apart := (wellBuilt.find fits hashed).2.mp missing
  obtain ⟨_, address, hashv, same, kept, elements⟩ := wellBuilt.add fits hashed apart value
  obtain rfl := Option.some.inj (added.symm.trans same)
  exact ⟨kept, address, hashv, elements⟩

theorem delete (wellBuilt : WellBuilt zendHash type head) {handle : UtHandle Zval}
    (member : handle ∈ head.handles) : WellBuilt zendHash type (head.delete handle) where
  consistent := wellBuilt.consistent.delete member
  fits := by
    intro other kept
    rw [UtHash.handles_delete] at kept
    exact wellBuilt.fits other (List.mem_filter.mp kept).1
  apart := by
    rw [UtHash.handles_delete]
    exact wellBuilt.apart.filter _
  small := by
    intro other kept inherits
    rw [UtHash.handles_delete] at kept
    have small := wellBuilt.small other (List.mem_filter.mp kept).1 inherits
    rw [UtHash.delete]
    dsimp only
    split
    · rfl
    · exact small

theorem setValue (wellBuilt : WellBuilt zendHash type head) (handle : UtHandle Zval)
    (value : Value) : WellBuilt zendHash type (head.setValue handle value) where
  consistent := wellBuilt.consistent.setValue handle value
  fits := by
    rw [UtHash.handles_setValue]
    exact wellBuilt.fits
  apart := by
    rw [UtHash.handles_setValue]
    exact wellBuilt.apart
  small := by
    rw [UtHash.handles_setValue]
    exact wellBuilt.small

end WellBuilt

end PhpDriver
