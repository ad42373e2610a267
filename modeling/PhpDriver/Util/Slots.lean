import PhpDriver.Util.Decoded

namespace PhpDriver

open Data

/-! What a set or a map keeps apart. A table of the initial size has one place for all the
values of a bucket if Zend compares them, and one for each value otherwise. -/

def CassValue.slot (zendHash : List UInt8 → BitVec 32) : CassValue → CassValue ⊕ Nat
  | .scalar value =>
      if (Zval.scalar value).inheritsCompare then
        .inr (utBucket ((valueHash zendHash (.scalar value)).getD 0) utInitialLog2)
      else .inl (.scalar value)
  | value => .inl value

variable {zendHash : List UInt8 → BitVec 32}

theorem apart_iff_slot {type : CassType} {first second : Zval} (firstFits : Fits type first)
    (secondFits : Fits type second) (firstHashed : (valueHash zendHash first).isSome)
    (secondHashed : (valueHash zendHash second).isSome) :
    Apart zendHash first second ↔
      first.meaning.slot zendHash ≠ second.meaning.slot zendHash := by
  have kind := (firstFits.sameKind secondFits firstHashed secondHashed).1
  obtain ⟨_, first, rfl, rfl, _⟩ := firstFits.scalar firstHashed
  obtain ⟨_, second, _, rfl, _⟩ := secondFits.scalar secondHashed
  obtain ⟨firstHash, firstSome⟩ := Option.isSome_iff_exists.mp firstHashed
  obtain ⟨secondHash, secondSome⟩ := Option.isSome_iff_exists.mp secondHashed
  have normal (value : Scalar) :
      (Zval.scalar value.normal).inheritsCompare = (Zval.scalar value).inheritsCompare := by
    cases value <;> rfl
  simp only [Zval.meaning, CassValue.slot, normal, valueHash_normal, kind, firstSome, secondSome,
    Option.getD_some]
  cases inherits : (Zval.scalar second).inheritsCompare with
  | false =>
      simp only [Bool.false_eq_true, if_false, ne_eq, Sum.inl.injEq]
      constructor
      · exact fun apart => apart.differ
      · exact fun differ => ⟨differ, by simp [inherits]⟩
  | true =>
      simp only [if_true, ne_eq, Sum.inr.injEq]
      constructor
      · exact fun apart => apart.buckets inherits _ _ firstSome secondSome
      · intro buckets
        refine ⟨fun same => buckets ?_, fun _ _ _ one other => ?_⟩
        · have hashes := @valueHash_congr zendHash _ _ same
          rw [firstSome, secondSome, Option.some.injEq] at hashes
          rw [hashes]
        · rw [firstSome, Option.some.injEq] at one
          rw [secondSome, Option.some.injEq] at other
          rwa [← one, ← other]

section

variable {Value : Type} {type : CassType} {head : UtHash Zval Value}

theorem WellBuilt.slot_ne (wellBuilt : WellBuilt zendHash type head) {key : Zval}
    (fits : Fits type key) (hashed : (valueHash zendHash key).isSome) :
    (∀ handle ∈ head.handles, Apart zendHash handle.key key) ↔
      ∀ handle ∈ head.handles, handle.key.meaning.slot zendHash ≠ key.meaning.slot zendHash :=
  forall₂_congr fun handle member => apart_iff_slot (wellBuilt.fits handle member) fits
    (wellBuilt.hashed member) hashed

theorem WellBuilt.eq_of_slot (wellBuilt : WellBuilt zendHash type head)
    {first second : UtHandle Zval} (firstIn : first ∈ head.handles)
    (secondIn : second ∈ head.handles)
    (same : first.key.meaning.slot zendHash = second.key.meaning.slot zendHash) :
    first = second := by
  have nodup : (head.handles.map fun handle => handle.key.meaning.slot zendHash).Nodup := by
    refine List.pairwise_map.mpr (wellBuilt.apart.imp_of_mem ?_)
    intro one other oneIn otherIn apart
    exact (apart_iff_slot (wellBuilt.fits one oneIn) (wellBuilt.fits other otherIn)
      (wellBuilt.hashed oneIn) (wellBuilt.hashed otherIn)).mp apart
  exact List.inj_on_of_nodup_map nodup firstIn secondIn same

theorem WellBuilt.find_slot (wellBuilt : WellBuilt zendHash type head) {key : Zval}
    (fits : Fits type key) (hashed : (valueHash zendHash key).isSome) :
    (hashFindZval zendHash head key = some none ∧ ∀ handle ∈ head.handles,
        handle.key.meaning.slot zendHash ≠ key.meaning.slot zendHash) ∨
      ∃ handle ∈ head.handles, hashFindZval zendHash head key = some (some handle) ∧
        handle.key.meaning.slot zendHash = key.meaning.slot zendHash := by
  obtain ⟨defined_, missing⟩ := wellBuilt.find fits hashed
  obtain ⟨found, search⟩ := Option.isSome_iff_exists.mp defined_
  rw [wellBuilt.slot_ne fits hashed] at missing
  cases found with
  | none => exact Or.inl ⟨search, missing.mp search⟩
  | some found =>
      obtain ⟨member, hashv, keyHash, bucket⟩ :=
        wellBuilt.consistent.linked.bucket_of_find search
      refine Or.inr ⟨found, member, search, ?_⟩
      have foundFits := wellBuilt.fits found member
      have foundHashed := wellBuilt.hashed member
      by_contra differ
      have apart := (apart_iff_slot foundFits fits foundHashed hashed).mpr differ
      cases inherits : key.inheritsCompare with
      | true =>
          have kind := (foundFits.sameKind fits foundHashed hashed).1
          rw [wellBuilt.small found member (kind.trans inherits)] at bucket
          exact apart.buckets inherits _ _ (wellBuilt.consistent.hashed found member) keyHash
            bucket
      | false =>
          have distinguished : Distinguished zendHash head key :=
            ⟨fun _ => hashed, by simp [inherits]⟩
          obtain ⟨none_, _⟩ | ⟨other, _, again, same⟩ :=
            wellBuilt.consistent.find_cases (distinguished.finds wellBuilt.consistent)
          · cases none_.symm.trans search
          · obtain rfl := Option.some.inj (Option.some.inj (again.symm.trans search))
            exact apart.differ same

end

theorem setAdd_null (set : PhpSet) : ∃ error,
    setAdd zendHash set .null = some (set, { result := false, thrown := some error }) :=
  ⟨_, rfl⟩

/-- Without a hash a key is not added, whether or not there is anything to search. -/
theorem search_unhashed {Value : Type} {key : Zval} (unhashed : valueHash zendHash key = none)
    (head : UtHash Zval Value) :
    (hashFindZval zendHash head key = none ∨ hashFindZval zendHash head key = some none) ∧
      ∀ value, hashAddZval zendHash head key value = none := by
  constructor
  · rw [hashFindZval, UtHash.find]
    split
    · exact Or.inr rfl
    · rw [unhashed]
      exact Or.inl rfl
  · intro value
    rw [hashAddZval, UtHash.add, unhashed]
    rfl

theorem setAdd_unhashed {set : PhpSet} {object : Zval} (fits : Fits set.valueType object)
    (unhashed : valueHash zendHash object = none) : setAdd zendHash set object = none := by
  have nonnull : ¬ object.isNull = true := by simp [fits.nonnull]
  obtain ⟨found | found, added⟩ := search_unhashed unhashed set.entries
  · simp [setAdd, setAddWith, nonnull, fits.accepted, found]
  · simp [setAdd, setAddWith, nonnull, fits.accepted, found, added]

theorem setAdd_hashed {set : PhpSet}
    (built : WellBuilt zendHash set.valueType set.entries) {object : Zval}
    (fits : Fits set.valueType object) (hashed : (valueHash zendHash object).isSome) :
    ∃ next, setAdd zendHash set object = some (next, { result := true }) ∧
      next.valueType = set.valueType ∧ WellBuilt zendHash next.valueType next.entries ∧
      ((∃ value ∈ set.values, value.meaning.slot zendHash = object.meaning.slot zendHash) ∧
          next.values = set.values ∨
        (∀ value ∈ set.values, value.meaning.slot zendHash ≠ object.meaning.slot zendHash) ∧
          next.values = set.values ++ [object]) := by
  have nonnull : ¬ object.isNull = true := by simp [fits.nonnull]
  have keys : set.values = set.entries.handles.map UtHandle.key := by
    rw [PhpSet.values, UtHash.handles, List.map_map]
    rfl
  obtain ⟨missing, apart⟩ | ⟨handle, member, found, same⟩ := built.find_slot fits hashed
  · obtain ⟨after, _, _, added, wellBuilt, elements⟩ :=
      built.add fits hashed ((built.slot_ne fits hashed).mpr apart) ()
    refine ⟨{ set with dirty := true, entries := after }, ?_, rfl, wellBuilt, Or.inr ⟨?_, ?_⟩⟩
    · simp [setAdd, setAddWith, nonnull, fits.accepted, missing, added]
    · rw [keys, List.forall_mem_map]
      exact apart
    · rw [PhpSet.values, elements, List.map_append]
      rfl
  · refine ⟨set, ?_, rfl, built, Or.inl ⟨⟨handle.key, ?_, same⟩, rfl⟩⟩
    · simp [setAdd, setAddWith, nonnull, fits.accepted, found]
    · rw [keys]
      exact List.mem_map_of_mem member

theorem mapSet_null {map : PhpMap} {key value : Zval} (null : key.isNull ∨ value.isNull) :
    ∃ error, mapSet zendHash map key value =
      some (map, { result := false, thrown := some error }) := by
  rw [mapSet, mapSetWith]
  by_cases keyNull : key.isNull = true
  · exact ⟨_, if_pos keyNull⟩
  · rw [if_neg keyNull, if_pos (null.resolve_left keyNull)]
    exact ⟨_, rfl⟩

theorem mapSet_unhashed {map : PhpMap} {key value : Zval} (fits : Fits map.keyType key)
    (valueFits : Fits map.valueType value) (unhashed : valueHash zendHash key = none) :
    mapSet zendHash map key value = none := by
  have nonnull : ¬ key.isNull = true := by simp [fits.nonnull]
  have valueNonnull : ¬ value.isNull = true := by simp [valueFits.nonnull]
  obtain ⟨found | found, added⟩ := search_unhashed unhashed map.entries
  · simp [mapSet, mapSetWith, nonnull, valueNonnull, fits.accepted, valueFits.accepted, found]
  · simp [mapSet, mapSetWith, nonnull, valueNonnull, fits.accepted, valueFits.accepted, found,
      added]

/-- A map has room for one key of each slot, and keeps the last value. -/
theorem mapSet_hashed {map : PhpMap}
    (built : WellBuilt zendHash map.keyType map.entries) {key value : Zval}
    (fits : Fits map.keyType key) (valueFits : Fits map.valueType value)
    (hashed : (valueHash zendHash key).isSome) :
    ∃ next, mapSet zendHash map key value = some (next, { result := true }) ∧
      next.keyType = map.keyType ∧ next.valueType = map.valueType ∧
      WellBuilt zendHash next.keyType next.entries ∧
      ((∃ entry ∈ map.pairsInOrder,
            entry.1.meaning.slot zendHash = key.meaning.slot zendHash) ∧
          next.pairsInOrder = map.pairsInOrder.map (fun entry =>
            if entry.1.meaning.slot zendHash = key.meaning.slot zendHash then (entry.1, value)
            else entry) ∨
        (∀ entry ∈ map.pairsInOrder,
            entry.1.meaning.slot zendHash ≠ key.meaning.slot zendHash) ∧
          next.pairsInOrder = map.pairsInOrder ++ [(key, value)]) := by
  have nonnull : ¬ key.isNull = true := by simp [fits.nonnull]
  have valueNonnull : ¬ value.isNull = true := by simp [valueFits.nonnull]
  obtain ⟨missing, apart⟩ | ⟨handle, member, found, same⟩ := built.find_slot fits hashed
  · obtain ⟨after, _, _, added, wellBuilt, elements⟩ :=
      built.add fits hashed ((built.slot_ne fits hashed).mpr apart) value
    refine ⟨{ map with dirty := true, entries := after }, ?_, rfl, rfl, wellBuilt,
      Or.inr ⟨?_, ?_⟩⟩
    · simp [mapSet, mapSetWith, nonnull, valueNonnull, fits.accepted, valueFits.accepted, missing,
        added]
    · intro entry inPairs
      obtain ⟨element, inElements, rfl⟩ := List.mem_map.mp inPairs
      exact apart element.toUtHandle (List.mem_map_of_mem inElements)
    · rw [PhpMap.pairsInOrder, elements, List.map_append]
      rfl
  · refine ⟨{ map with dirty := true, entries := map.entries.setValue handle value }, ?_, rfl,
      rfl, built.setValue handle value, Or.inl ⟨?_, ?_⟩⟩
    · simp [mapSet, mapSetWith, nonnull, valueNonnull, fits.accepted, valueFits.accepted, found]
    · obtain ⟨element, inElements, rfl⟩ := List.mem_map.mp member
      exact ⟨_, List.mem_map_of_mem inElements, same⟩
    · rw [PhpMap.pairsInOrder, PhpMap.pairsInOrder, UtHash.setValue, List.map_map, List.map_map]
      refine List.map_congr_left fun element inElements => ?_
      have inHandles : element.toUtHandle ∈ map.entries.handles := List.mem_map_of_mem inElements
      -- the address is that of the handle exactly in its slot
      have place : element.address = handle.address ↔
          element.key.meaning.slot zendHash = key.meaning.slot zendHash := by
        constructor
        · intro address
          rw [← built.consistent.eq_of_address inHandles member address] at same
          exact same
        · intro slot
          rw [← built.eq_of_slot inHandles member (slot.trans same.symm)]
      simp only [Function.comp_apply, place]
      split <;> rfl

end PhpDriver
