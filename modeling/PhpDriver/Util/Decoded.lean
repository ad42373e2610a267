import PhpDriver.Data.Traverse
import PhpDriver.Util.Built
import PhpDriver.Util.Result

namespace PhpDriver

open Data

variable (gmp : Gmp) (zendHash : List UInt8 → BitVec 32)

/-! A decoded value is one of its type, and a decoded set or map has at most the elements
and entries it was given. -/

theorem isInstance_of_decodeScalar {type : ScalarType} {content : CassScalar} {out : Scalar}
    (decoded : decodeScalar gmp type content = some out) : type.isInstance out := by
  cases type <;> cases content <;> try cases decoded
  all_goals first
    | rfl
    | (obtain ⟨_, _, rfl⟩ := Option.map_eq_some_iff.mp decoded
       rfl)

variable {gmp zendHash}

theorem setAdd_values {set next : PhpSet} {object : Zval} {answer : Answer}
    (taken : setAdd zendHash set object = some (next, answer)) :
    next.valueType = set.valueType ∧
      (next.values = set.values ∨ next.values = set.values ++ [object]) := by
  obtain ⟨type, same | ⟨_, _, added⟩⟩ := setAdd_cases taken
  · exact ⟨type, Or.inl (by rw [PhpSet.values, same, PhpSet.values])⟩
  · obtain ⟨hashv, elements⟩ := UtHash.elements_add added
    refine ⟨type, Or.inr ?_⟩
    rw [PhpSet.values, elements, List.map_append]
    rfl

theorem addValues_valueType {set last : PhpSet} {values : List Zval}
    (taken : addValues zendHash set values = some last) : last.valueType = set.valueType := by
  have run : Run _ (fun _ _ => True) set values last := .of_foldlM (fun _ _ _ => trivial) taken
  refine @Run.invariant _ _ _ _ (fun state => state.valueType = set.valueType) ?_ _ _ _ run rfl
  intro state value next kept _ stepped
  obtain ⟨_, added, rfl⟩ := Option.map_eq_some_iff.mp stepped
  exact (setAdd_values added).1.trans kept

theorem addValues_eq_of_length {set last : PhpSet} {values : List Zval}
    (taken : addValues zendHash set values = some last)
    (full : last.values.length = set.values.length + values.length) :
    last.values = set.values ++ values := by
  have grown : last.values = set.values ++ values.map id :=
    (eq_append_of_length ?_ taken).2 full
  · rwa [List.map_id] at grown
  · intro state value next stepped
    obtain ⟨_, added, rfl⟩ := Option.map_eq_some_iff.mp stepped
    obtain same | added := (setAdd_values added).2
    · exact Or.inl (by rw [same])
    · exact Or.inr added

theorem mapSet_pairsInOrder {map next : PhpMap} {key value : Zval} {answer : Answer}
    (taken : mapSet zendHash map key value = some (next, answer)) :
    next.keyType = map.keyType ∧ next.valueType = map.valueType ∧
      (next.pairsInOrder.length = map.pairsInOrder.length ∨
        next.pairsInOrder = map.pairsInOrder ++ [(key, value)]) := by
  obtain ⟨keyType, valueType, same | ⟨_, _, ⟨_, added⟩ | ⟨handle, _, entries⟩⟩⟩ :=
    mapSet_cases taken
  · exact ⟨keyType, valueType, Or.inl (by rw [PhpMap.pairsInOrder, same, PhpMap.pairsInOrder])⟩
  · obtain ⟨hashv, elements⟩ := UtHash.elements_add added
    refine ⟨keyType, valueType, Or.inr ?_⟩
    rw [PhpMap.pairsInOrder, elements, List.map_append]
    rfl
  · refine ⟨keyType, valueType, Or.inl ?_⟩
    rw [PhpMap.pairsInOrder, entries, PhpMap.pairsInOrder, UtHash.setValue, List.length_map,
      List.length_map, List.length_map]

theorem setEntries_types {map last : PhpMap} {entries : List (Zval × Zval)}
    (taken : setEntries zendHash map entries = some last) :
    last.keyType = map.keyType ∧ last.valueType = map.valueType := by
  have run : Run _ (fun _ _ => True) map entries last := .of_foldlM (fun _ _ _ => trivial) taken
  refine @Run.invariant _ _ _ _
    (fun state => state.keyType = map.keyType ∧ state.valueType = map.valueType) ?_ _ _ _ run
    ⟨rfl, rfl⟩
  rintro state entry next ⟨keyType, valueType⟩ _ stepped
  obtain ⟨_, added, rfl⟩ := Option.map_eq_some_iff.mp stepped
  obtain ⟨nextKeyType, nextValueType, _⟩ := mapSet_pairsInOrder added
  exact ⟨nextKeyType.trans keyType, nextValueType.trans valueType⟩

theorem setEntries_eq_of_length {map last : PhpMap} {entries : List (Zval × Zval)}
    (taken : setEntries zendHash map entries = some last)
    (full : last.pairsInOrder.length = map.pairsInOrder.length + entries.length) :
    last.pairsInOrder = map.pairsInOrder ++ entries := by
  have grown : last.pairsInOrder = map.pairsInOrder ++ entries.map id :=
    (eq_append_of_length ?_ taken).2 full
  · rwa [List.map_id] at grown
  · intro state entry next stepped
    obtain ⟨_, added, rfl⟩ := Option.map_eq_some_iff.mp stepped
    obtain ⟨_, _, same | added⟩ := mapSet_pairsInOrder added
    · exact Or.inl (Nat.le_of_eq same)
    · exact Or.inr added

theorem decodeValue_accepted {type : CassType} {item : CassItem} {out : Zval}
    (decoded : decodeValue gmp zendHash type item = some out) :
    validateObject out type = .accepted := by
  unfold decodeValue at decoded
  split at decoded
  · obtain rfl := Option.some.inj decoded
    exact validateObject_null _
  · obtain rfl := Option.some.inj decoded
    exact validateObject_null _
  · obtain ⟨_, scalar, rfl⟩ := Option.map_eq_some_iff.mp decoded
    exact (validateObject_scalar_iff _ _).mpr ⟨_, rfl, isInstance_of_decodeScalar gmp scalar⟩
  · obtain ⟨_, _, rfl⟩ := Option.map_eq_some_iff.mp decoded
    exact (validateObject_container_iff rfl _).mpr rfl
  · simp only [Option.bind_eq_bind, Option.bind_eq_some_iff] at decoded
    obtain ⟨entries, _, map, taken, decoded⟩ := decoded
    obtain rfl := Option.some.inj decoded
    obtain ⟨keyType, valueType⟩ := setEntries_types taken
    refine (validateObject_container_iff rfl _).mpr ?_
    rw [keyType, valueType]
  · simp only [Option.bind_eq_bind, Option.bind_eq_some_iff] at decoded
    obtain ⟨values, _, set, taken, decoded⟩ := decoded
    obtain rfl := Option.some.inj decoded
    refine (validateObject_container_iff rfl _).mpr ?_
    rw [addValues_valueType taken]
  · obtain ⟨_, _, rfl⟩ := Option.map_eq_some_iff.mp decoded
    exact (validateObject_container_iff rfl _).mpr rfl
  · obtain ⟨_, _, rfl⟩ := Option.map_eq_some_iff.mp decoded
    exact (validateObject_container_iff rfl _).mpr rfl
  · cases decoded

theorem decodeValue_of_isNull {type : CassType} {item : CassItem} {out : Zval}
    (null : item.isNull) (decoded : decodeValue gmp zendHash type item = some out) :
    out = .null := by
  cases item with
  | null => cases type <;> exact (Option.some.inj decoded).symm
  | _ => cases null

/-! A set takes distinct values, and a map distinct keys, in their order. -/

theorem setAdd_distinct {set : PhpSet} {object : Zval} {others : List Zval}
    (entries : WellBuilt zendHash set.valueType set.entries)
    (keys : DistinctKeys zendHash set.valueType (set.values ++ object :: others)) :
    ∃ next, setAdd zendHash set object = some (next, { result := true }) ∧
      next.valueType = set.valueType ∧ WellBuilt zendHash next.valueType next.entries ∧
      next.values = set.values ++ [object] := by
  have fits := keys.fits object (by simp)
  have hashed := keys.hashed object (by simp)
  have apart (handle : UtHandle Zval) (member : handle ∈ set.entries.handles) :
      Apart zendHash handle.key object := by
    obtain ⟨element, inElements, rfl⟩ := List.mem_map.mp member
    exact (List.pairwise_append.mp keys.apart).2.2 _
      (List.mem_map_of_mem inElements) _ List.mem_cons_self
  obtain ⟨after, address, hashv, added, wellBuilt, elements⟩ := entries.add fits hashed apart ()
  have missing := (entries.find fits hashed).2.mpr apart
  refine ⟨{ set with dirty := true, entries := after }, ?_, rfl, wellBuilt, ?_⟩
  · simp [setAdd, setAddWith, fits.nonnull, fits.accepted, missing, added]
  · rw [PhpSet.values, elements, List.map_append]
    rfl

theorem addValues_distinct {set : PhpSet} {values : List Zval}
    (entries : WellBuilt zendHash set.valueType set.entries)
    (keys : DistinctKeys zendHash set.valueType (set.values ++ values)) :
    ∃ last, addValues zendHash set values = some last ∧ last.values = set.values ++ values := by
  induction values generalizing set with
  | nil => exact ⟨set, rfl, by simp⟩
  | cons object others ih =>
      obtain ⟨next, added, type, wellBuilt, values⟩ := setAdd_distinct entries keys
      have rest : DistinctKeys zendHash next.valueType (next.values ++ others) := by
        rwa [type, values, List.append_assoc, List.singleton_append]
      obtain ⟨last, taken, lastValues⟩ := ih wellBuilt rest
      refine ⟨last, ?_, by rw [lastValues, values, List.append_assoc, List.singleton_append]⟩
      rw [addValues] at taken ⊢
      rw [List.foldlM_cons, added]
      exact taken

theorem mapSet_distinct {map : PhpMap} {key value : Zval} {others : List Zval}
    (entries : WellBuilt zendHash map.keyType map.entries)
    (keys : DistinctKeys zendHash map.keyType (map.keys ++ key :: others))
    (valueFits : Fits map.valueType value) :
    ∃ next, mapSet zendHash map key value = some (next, { result := true }) ∧
      next.keyType = map.keyType ∧ next.valueType = map.valueType ∧
      WellBuilt zendHash next.keyType next.entries ∧
      next.pairsInOrder = map.pairsInOrder ++ [(key, value)] := by
  have fits := keys.fits key (by simp)
  have hashed := keys.hashed key (by simp)
  have apart (handle : UtHandle Zval) (member : handle ∈ map.entries.handles) :
      Apart zendHash handle.key key := by
    obtain ⟨element, inElements, rfl⟩ := List.mem_map.mp member
    exact (List.pairwise_append.mp keys.apart).2.2 _
      (List.mem_map_of_mem inElements) _ List.mem_cons_self
  obtain ⟨after, address, hashv, added, wellBuilt, elements⟩ := entries.add fits hashed apart value
  have missing := (entries.find fits hashed).2.mpr apart
  refine ⟨{ map with dirty := true, entries := after }, ?_, rfl, rfl, wellBuilt, ?_⟩
  · simp [mapSet, mapSetWith, fits.nonnull, fits.accepted, valueFits.nonnull, valueFits.accepted, missing,
      added]
  · rw [PhpMap.pairsInOrder, elements, List.map_append]
    rfl

theorem setEntries_distinct {map : PhpMap} {pairs : List (Zval × Zval)}
    (entries : WellBuilt zendHash map.keyType map.entries)
    (keys : DistinctKeys zendHash map.keyType ((map.pairsInOrder ++ pairs).map Prod.fst))
    (values : ∀ pair ∈ pairs, Fits map.valueType pair.2) :
    ∃ last, setEntries zendHash map pairs = some last ∧
      last.pairsInOrder = map.pairsInOrder ++ pairs := by
  induction pairs generalizing map with
  | nil => exact ⟨map, rfl, by simp⟩
  | cons pair others ih =>
      rw [List.forall_mem_cons] at values
      have mapKeys : map.pairsInOrder.map Prod.fst = map.keys := by
        rw [PhpMap.pairsInOrder, List.map_map]
        rfl
      have split : DistinctKeys zendHash map.keyType
          (map.keys ++ pair.1 :: others.map Prod.fst) := by
        rwa [List.map_append, mapKeys, List.map_cons] at keys
      obtain ⟨next, added, keyType, valueType, wellBuilt, nextPairs⟩ :=
        mapSet_distinct entries split values.1
      have rest : DistinctKeys zendHash next.keyType
          ((next.pairsInOrder ++ others).map Prod.fst) := by
        rwa [keyType, nextPairs, List.append_assoc, List.singleton_append]
      obtain ⟨last, taken, lastPairs⟩ := ih wellBuilt rest (by rw [valueType]; exact values.2)
      refine ⟨last, ?_, by rw [lastPairs, nextPairs, List.append_assoc, List.singleton_append]⟩
      rw [setEntries] at taken ⊢
      rw [List.foldlM_cons, added]
      exact taken

end PhpDriver
