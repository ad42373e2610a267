import PhpDriver.Util.Carried
import PhpDriver.Util.Decoded

namespace PhpDriver

open Data

variable (gmp : Gmp) (zendHash : List UInt8 → BitVec 32)

/-- What a value comes back as from the encoder of a position and the decoder. -/
def returned (position : Position) (type : CassType) (value : Zval) : Option Zval :=
  (encodeValue gmp position type value).bind (decodeValue gmp zendHash type)

def Returns (position : Position) (type : CassType) (value : Zval) : Prop :=
  ∃ out, returned gmp zendHash position type value = some out ∧ out.meaning = value.meaning

theorem encodeValue_canonical (position : Position) (type : CassType) (value : Zval) :
    encodeValue gmp position type.canonical value = encodeValue gmp position type value := by
  cases type with
  | scalar type =>
      cases value with
      | null => cases position <;> cases type <;> rfl
      | scalar value =>
          cases type with
          | varchar => cases value <;> rfl
          | _ => rfl
      | _ => rfl
  | _ => cases position <;> cases value <;> rfl

theorem encodeValue_congr {own type : CassType} (same : own.canonical = type.canonical)
    (position : Position) (value : Zval) :
    encodeValue gmp position own value = encodeValue gmp position type value := by
  rw [← encodeValue_canonical gmp position own, same, encodeValue_canonical]

variable {gmp zendHash}

theorem returned_accepted {position : Position} {type : CassType} {value out : Zval}
    (taken : returned gmp zendHash position type value = some out) :
    validateObject out type = .accepted := by
  obtain ⟨_, _, decoded⟩ := Option.bind_eq_some_iff.mp taken
  exact decodeValue_accepted decoded

theorem returns_null {position : Position} (field : position ≠ .element) (type : CassType) :
    Returns gmp zendHash position type .null := by
  refine ⟨.null, ?_, rfl⟩
  rw [returned, encodeValue]
  cases position with
  | element => exact absurd rfl field
  | tupleField | userTypeField => cases type <;> rfl

theorem scalar_returns_iff (position : Position) {type : ScalarType} {value : Scalar}
    (holds : type.isInstance value) :
    Returns gmp zendHash position (.scalar type) (.scalar value) ↔
      value.Carried position := by
  have same : returned gmp zendHash position (.scalar type) (.scalar value) =
      (value.returned gmp position).map .scalar := by
    rw [← encodeScalar_bind_decodeScalar gmp position holds, returned]
    cases encoded : encodeScalar gmp position type value <;>
      simp [encodeValue, encoded, decodeValue]
  rw [← Scalar.returned_iff gmp position value, Returns, same]
  constructor
  · rintro ⟨_, taken, equal⟩
    obtain ⟨out, returned, rfl⟩ := Option.map_eq_some_iff.mp taken
    exact ⟨out, returned, CassValue.scalar.inj equal⟩
  · rintro ⟨out, returned, equal⟩
    exact ⟨.scalar out, by rw [returned]; rfl, congrArg CassValue.scalar equal⟩

/-! Lists, sets and maps: their elements are encoded by their own type and decoded by the
type of the column. -/

theorem appendValues_bind_decodeValues {own type : CassType}
    (same : own.canonical = type.canonical) (values : List Zval) :
    (appendValues gmp own values).bind (decodeValues gmp zendHash type) =
      values.mapM (returned gmp zendHash .element type) := by
  induction values with
  | nil => rfl
  | cons value values ih =>
      rw [List.mapM_cons, ← ih, returned, appendValues, encodeValue_congr gmp same]
      cases encodeValue gmp .element type value with
      | none => rfl
      | some item =>
          cases appendValues gmp own values with
          | none => cases decoded : decodeValue gmp zendHash type item <;> simp [decoded]
          | some items => simp [decodeValues]

theorem list_returns_iff (position : Position) {own type : CassType}
    (same : own.canonical = type.canonical) (values : List Zval) :
    Returns gmp zendHash position (.list type) (.collection own values) ↔
      ∀ value ∈ values, Returns gmp zendHash .element type value := by
  have walk : returned gmp zendHash position (.list type) (.collection own values) =
      (values.mapM (returned gmp zendHash .element type)).map (.collection type) := by
    rw [← appendValues_bind_decodeValues same, returned]
    cases appended : appendValues gmp own values <;>
      simp [encodeValue, appended, decodeValue]
  rw [Returns, walk]
  simp only [Returns]
  rw [← exists_mapM_map_iff]
  constructor
  · rintro ⟨_, taken, equal⟩
    obtain ⟨outs, walked, rfl⟩ := Option.map_eq_some_iff.mp taken
    refine ⟨outs, walked, ?_⟩
    simpa only [Zval.meaning, Zval.meanings_eq_map, CassValue.list.injEq] using equal
  · rintro ⟨outs, walked, equal⟩
    refine ⟨.collection type outs, by rw [walked]; rfl, ?_⟩
    rw [Zval.meaning, Zval.meaning, Zval.meanings_eq_map, Zval.meanings_eq_map, equal]

theorem set_returns_iff (position : Position) {own type : CassType}
    (same : own.canonical = type.canonical) {values : List Zval}
    (keys : DistinctKeys zendHash own values) :
    Returns gmp zendHash position (.set type) (.set own values) ↔
      ∀ value ∈ values, Returns gmp zendHash .element type value := by
  have walk : returned gmp zendHash position (.set type) (.set own values) =
      (values.mapM (returned gmp zendHash .element type)).bind fun outs =>
        (addValues zendHash { valueType := type } outs).map PhpSet.toZval := by
    rw [← appendValues_bind_decodeValues same, returned]
    cases appended : appendValues gmp own values with
    | none => simp [encodeValue, appended]
    | some items =>
        cases decoded : decodeValues gmp zendHash type items with
        | none => simp [encodeValue, appended, decodeValue, decoded]
        | some outs =>
            simp only [encodeValue, appended, Option.map_some, Option.bind_some, decodeValue,
              decoded, Option.bind_eq_bind]
            cases addValues zendHash { valueType := type } outs <;> rfl
  rw [Returns, walk]
  constructor
  · rintro ⟨_, taken, equal⟩
    obtain ⟨outs, walked, taken⟩ := Option.bind_eq_some_iff.mp taken
    obtain ⟨set, added, rfl⟩ := Option.map_eq_some_iff.mp taken
    have meanings : set.values.map Zval.meaning = values.map Zval.meaning := by
      simpa only [PhpSet.toZval, Zval.meaning, Zval.meanings_eq_map, CassValue.set.injEq]
        using equal
    have length : set.values.length = values.length := by
      simpa only [List.length_map] using congrArg List.length meanings
    have all : set.values = [] ++ outs := addValues_eq_of_length added (by
      rw [length, length_eq_of_mapM walked]
      exact (Nat.zero_add _).symm)
    rw [all, List.nil_append] at meanings
    exact (exists_mapM_map_iff values).mp ⟨outs, walked, meanings⟩
  · intro all
    obtain ⟨outs, walked, meanings⟩ := (exists_mapM_map_iff values).mpr all
    have accepted (out : Zval) (member : out ∈ outs) :
        validateObject out type = .accepted := by
      obtain ⟨_, _, taken⟩ := exists_of_mem_mapM walked out member
      exact returned_accepted taken
    have distinct : DistinctKeys zendHash type outs := keys.congr meanings accepted
    obtain ⟨set, added, setValues⟩ : ∃ last,
        addValues zendHash { valueType := type } outs = some last ∧ last.values = _ :=
      addValues_distinct .empty distinct
    refine ⟨set.toZval, by simp [walked, added], ?_⟩
    rw [PhpSet.toZval, setValues, Zval.meaning, Zval.meaning, Zval.meanings_eq_map,
      Zval.meanings_eq_map, ← meanings]
    rfl

def returnedEntry (gmp : Gmp) (zendHash : List UInt8 → BitVec 32)
    (keyType valueType : CassType) (entry : Zval × Zval) : Option (Zval × Zval) :=
  (returned gmp zendHash .element keyType entry.1).bind fun key =>
    (returned gmp zendHash .element valueType entry.2).map fun value => (key, value)

theorem returnedEntry_iff (keyType valueType : CassType) (entry : Zval × Zval) :
    (∃ out, returnedEntry gmp zendHash keyType valueType entry = some out ∧
        (out.1.meaning, out.2.meaning) = (entry.1.meaning, entry.2.meaning)) ↔
      Returns gmp zendHash .element keyType entry.1 ∧
        Returns gmp zendHash .element valueType entry.2 := by
  constructor
  · rintro ⟨_, taken, equal⟩
    obtain ⟨key, keyReturned, taken⟩ := Option.bind_eq_some_iff.mp taken
    obtain ⟨value, valueReturned, rfl⟩ := Option.map_eq_some_iff.mp taken
    obtain ⟨keySame, valueSame⟩ := Prod.mk.inj equal
    exact ⟨⟨key, keyReturned, keySame⟩, value, valueReturned, valueSame⟩
  · rintro ⟨⟨key, keyReturned, keySame⟩, value, valueReturned, valueSame⟩
    refine ⟨(key, value), ?_, by rw [keySame, valueSame]⟩
    rw [returnedEntry, keyReturned, valueReturned]
    rfl

theorem returnedEntry_accepted {keyType valueType : CassType} {entry out : Zval × Zval}
    (taken : returnedEntry gmp zendHash keyType valueType entry = some out) :
    validateObject out.1 keyType = .accepted ∧ validateObject out.2 valueType = .accepted := by
  obtain ⟨key, keyReturned, taken⟩ := Option.bind_eq_some_iff.mp taken
  obtain ⟨value, valueReturned, rfl⟩ := Option.map_eq_some_iff.mp taken
  exact ⟨returned_accepted keyReturned, returned_accepted valueReturned⟩

theorem appendEntries_bind_decodeEntries {ownKey ownValue keyType valueType : CassType}
    (sameKey : ownKey.canonical = keyType.canonical)
    (sameValue : ownValue.canonical = valueType.canonical) (entries : List (Zval × Zval)) :
    (appendEntries gmp ownKey ownValue entries).bind
        (decodeEntries gmp zendHash keyType valueType) =
      entries.mapM (returnedEntry gmp zendHash keyType valueType) := by
  induction entries with
  | nil => rfl
  | cons entry entries ih =>
      rw [List.mapM_cons, ← ih, returnedEntry, returned, returned, appendEntries,
        encodeValue_congr gmp sameKey, encodeValue_congr gmp sameValue]
      cases encodeValue gmp .element keyType entry.1 with
      | none => rfl
      | some keyItem =>
          cases encodeValue gmp .element valueType entry.2 with
          | none => cases decoded : decodeValue gmp zendHash keyType keyItem <;> simp [decoded]
          | some item =>
              cases decodedKey : decodeValue gmp zendHash keyType keyItem <;>
                cases decoded : decodeValue gmp zendHash valueType item <;>
                cases appendEntries gmp ownKey ownValue entries <;>
                simp [decodeEntries, decodedKey, decoded]

theorem map_returns_iff (position : Position) {ownKey ownValue keyType valueType : CassType}
    (sameKey : ownKey.canonical = keyType.canonical)
    (sameValue : ownValue.canonical = valueType.canonical) {entries : List (Zval × Zval)}
    (keys : DistinctKeys zendHash ownKey (entries.map Prod.fst))
    (values : ∀ entry ∈ entries, Fits ownValue entry.2) :
    Returns gmp zendHash position (.map keyType valueType) (.map ownKey ownValue entries) ↔
      ∀ entry ∈ entries, Returns gmp zendHash .element keyType entry.1 ∧
        Returns gmp zendHash .element valueType entry.2 := by
  have walk : returned gmp zendHash position (.map keyType valueType)
      (.map ownKey ownValue entries) =
        (entries.mapM (returnedEntry gmp zendHash keyType valueType)).bind fun outs =>
          (setEntries zendHash { keyType, valueType } outs).map PhpMap.toZval := by
    rw [← appendEntries_bind_decodeEntries sameKey sameValue, returned]
    cases appended : appendEntries gmp ownKey ownValue entries with
    | none => simp [encodeValue, appended]
    | some items =>
        cases decoded : decodeEntries gmp zendHash keyType valueType items with
        | none => simp [encodeValue, appended, decodeValue, decoded]
        | some outs =>
            simp only [encodeValue, appended, Option.map_some, Option.bind_some, decodeValue,
              decoded, Option.bind_eq_bind]
            cases setEntries zendHash { keyType, valueType } outs <;> rfl
  rw [Returns, walk]
  simp only [← returnedEntry_iff]
  rw [← exists_mapM_map_iff]
  constructor
  · rintro ⟨_, taken, equal⟩
    obtain ⟨outs, walked, taken⟩ := Option.bind_eq_some_iff.mp taken
    obtain ⟨map, added, rfl⟩ := Option.map_eq_some_iff.mp taken
    simp only [PhpMap.toZval, Zval.meaning, Zval.entryMeanings_eq_map, CassValue.map.injEq]
      at equal
    have length : map.pairsInOrder.length = entries.length := by
      simpa only [List.length_map] using congrArg List.length equal
    have all : map.pairsInOrder = [] ++ outs := setEntries_eq_of_length added (by
      rw [length, length_eq_of_mapM walked]
      exact (Nat.zero_add _).symm)
    rw [all, List.nil_append] at equal
    exact ⟨outs, walked, equal⟩
  · rintro ⟨outs, walked, meanings⟩
    have accepted (out : Zval × Zval) (member : out ∈ outs) :
        validateObject out.1 keyType = .accepted ∧
          validateObject out.2 valueType = .accepted := by
      obtain ⟨_, _, taken⟩ := exists_of_mem_mapM walked out member
      exact returnedEntry_accepted taken
    have keyMeanings : (outs.map Prod.fst).map Zval.meaning =
        (entries.map Prod.fst).map Zval.meaning := by
      have firsts := congrArg (List.map Prod.fst) meanings
      rw [List.map_map, List.map_map] at firsts ⊢
      exact firsts
    have distinct : DistinctKeys zendHash keyType (outs.map Prod.fst) := by
      refine keys.congr keyMeanings ?_
      intro key member
      obtain ⟨out, inOuts, rfl⟩ := List.mem_map.mp member
      exact (accepted out inOuts).1
    have valuesFit (out : Zval × Zval) (member : out ∈ outs) : Fits valueType out.2 := by
      refine ⟨?_, (accepted out member).2⟩
      have twin : (out.1.meaning, out.2.meaning) ∈
          entries.map fun entry => (entry.1.meaning, entry.2.meaning) := by
        rw [← meanings]
        exact List.mem_map_of_mem member
      obtain ⟨entry, inEntries, equal⟩ := List.mem_map.mp twin
      have nonnull := (values entry inEntries).nonnull
      rw [← Bool.not_eq_true, ← Zval.meaning_eq_null_iff] at nonnull ⊢
      rwa [← (Prod.mk.inj equal).2]
    obtain ⟨map, added, pairs⟩ : ∃ last,
        setEntries zendHash { keyType, valueType } outs = some last ∧ last.pairsInOrder = _ :=
      setEntries_distinct .empty distinct valuesFit
    refine ⟨map.toZval, by simp [walked, added], ?_⟩
    rw [PhpMap.toZval, pairs, Zval.meaning, Zval.meaning, Zval.entryMeanings_eq_map,
      Zval.entryMeanings_eq_map, ← meanings]
    rfl

end PhpDriver
