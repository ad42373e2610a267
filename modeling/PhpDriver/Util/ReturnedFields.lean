import PhpDriver.Util.Returned

namespace PhpDriver

open Data

/-! The fields of tuples and user type values. -/

section

variable {Key : Type} [DecidableEq Key]

def fieldMeaning (values : OrderedMap Key Zval) (key : Key) : CassValue :=
  CassValue.field (values.map fun field => (field.1, field.2.meaning)) key

theorem fieldMeaning_eq (values : OrderedMap Key Zval) (key : Key) :
    fieldMeaning values key = ((values.get key).map Zval.meaning).getD .null := by
  rw [fieldMeaning, CassValue.field, OrderedMap.get_map]

theorem fieldMeaning_of_mem {values : OrderedMap Key Zval} (nodup : values.keys.Nodup)
    {key : Key} {value : Zval} (member : (key, value) ∈ values) :
    fieldMeaning values key = value.meaning := by
  rw [fieldMeaning_eq, OrderedMap.get_eq_some_of_mem nodup member]
  rfl

theorem fieldMeaning_of_notMem {values : OrderedMap Key Zval} {key : Key}
    (missing : key ∉ values.keys) : fieldMeaning values key = .null := by
  rw [fieldMeaning_eq, (OrderedMap.get_eq_none_iff values key).mpr missing]
  rfl

theorem fieldMeaning_cons (key : Key) (value : Zval) (values : OrderedMap Key Zval)
    (other : Key) :
    fieldMeaning ((key, value) :: values) other =
      if key = other then value.meaning else fieldMeaning values other := by
  rw [fieldMeaning_eq, fieldMeaning_eq, OrderedMap.get, OrderedMap.get, List.find?_cons]
  by_cases same : key = other <;> simp [same]

variable (gmp : Gmp) (zendHash : List UInt8 → BitVec 32)

def decodeKeyed : List (Key × CassType) → List CassItem → Option (OrderedMap Key Zval)
  | (key, type) :: types, item :: items => do
      let out ← decodeValue gmp zendHash type item
      let outs ← decodeKeyed types items
      some (if item.isNull then outs else (key, out) :: outs)
  | _, _ => some []

variable {gmp zendHash}

omit [DecidableEq Key] in
theorem keys_decodeKeyed {types : List (Key × CassType)} {items : List CassItem}
    {outs : OrderedMap Key Zval}
    (decoded : decodeKeyed gmp zendHash types items = some outs) :
    ∀ key ∈ outs.keys, key ∈ types.map Prod.fst := by
  induction types generalizing items outs with
  | nil =>
      obtain rfl := Option.some.inj decoded
      simp [OrderedMap.keys]
  | cons field types ih =>
      cases items with
      | nil =>
          obtain rfl := Option.some.inj decoded
          simp [OrderedMap.keys]
      | cons item items =>
          simp only [decodeKeyed, Option.bind_eq_bind, Option.bind_eq_some_iff] at decoded
          obtain ⟨out, _, rest, walked, decoded⟩ := decoded
          obtain rfl := Option.some.inj decoded
          intro key member
          rw [List.map_cons, List.mem_cons]
          split at member
          · exact Or.inr (ih walked key member)
          · rw [OrderedMap.keys, List.map_cons, List.mem_cons] at member
            exact member.imp id (ih walked key)

/-- The fields come back as they should exactly when each item does. -/
theorem decodeKeyed_iff {types : List (Key × CassType)} {items : List CassItem}
    (lengths : types.length = items.length) (nodup : (types.map Prod.fst).Nodup)
    (expected : Key → CassValue) :
    (∃ outs, decodeKeyed gmp zendHash types items = some outs ∧
        ∀ key ∈ types.map Prod.fst, fieldMeaning outs key = expected key) ↔
      ∀ (index : Nat) key type item, types[index]? = some (key, type) →
        items[index]? = some item →
        ∃ out, decodeValue gmp zendHash type item = some out ∧ out.meaning = expected key := by
  induction types generalizing items with
  | nil => simp [decodeKeyed]
  | cons field types ih =>
      obtain ⟨key, type⟩ := field
      cases items with
      | nil => cases lengths
      | cons item items =>
          rw [List.map_cons, List.nodup_cons] at nodup
          have there (outs : OrderedMap Key Zval)
              (walked : decodeKeyed gmp zendHash types items = some outs) (out : Zval)
              (outDecoded : decodeValue gmp zendHash type item = some out) :
              fieldMeaning (if item.isNull then outs else (key, out) :: outs) key =
                  out.meaning ∧
                ∀ other ∈ types.map Prod.fst,
                  fieldMeaning (if item.isNull then outs else (key, out) :: outs) other =
                    fieldMeaning outs other := by
            have missing : key ∉ outs.keys := fun member =>
              nodup.1 (keys_decodeKeyed walked key member)
            split
            · rename_i null
              obtain rfl := decodeValue_of_isNull null outDecoded
              rw [fieldMeaning_of_notMem missing]
              exact ⟨rfl, fun _ _ => rfl⟩
            · refine ⟨by rw [fieldMeaning_cons, if_pos rfl], fun other member => ?_⟩
              have differs : key ≠ other := by
                rintro rfl
                exact nodup.1 member
              rw [fieldMeaning_cons, if_neg differs]
          have rest := ih (Nat.succ.inj lengths) nodup.2
          constructor
          · rintro ⟨_, decoded, same⟩
            simp only [decodeKeyed, Option.bind_eq_bind, Option.bind_eq_some_iff] at decoded
            obtain ⟨out, outDecoded, outs, walked, decoded⟩ := decoded
            obtain rfl := Option.some.inj decoded
            rw [List.map_cons, List.forall_mem_cons, (there outs walked out outDecoded).1] at same
            intro index other otherType otherItem typeAt itemAt
            cases index with
            | zero =>
                obtain ⟨rfl, rfl⟩ := Prod.mk.inj (Option.some.inj typeAt)
                obtain rfl := Option.some.inj itemAt
                exact ⟨out, outDecoded, same.1⟩
            | succ index =>
                refine rest.mp ⟨outs, walked, fun key member => ?_⟩ index other otherType
                  otherItem typeAt itemAt
                rw [← (there outs walked out outDecoded).2 key member, same.2 key member]
          · intro all
            obtain ⟨out, outDecoded, outSame⟩ := all 0 key type item rfl rfl
            obtain ⟨outs, walked, same⟩ := rest.mpr fun index => all (index + 1)
            refine ⟨_, by simp [decodeKeyed, outDecoded, walked]; rfl, ?_⟩
            rw [List.map_cons, List.forall_mem_cons, (there outs walked out outDecoded).1]
            refine ⟨outSame, fun other member => ?_⟩
            rw [(there outs walked out outDecoded).2 other member, same other member]

end

variable {gmp : Gmp} {zendHash : List UInt8 → BitVec 32}

theorem decodeFields_cons (type : CassType) (types : List CassType) (index : Nat)
    (item : CassItem) (items : List CassItem) :
    decodeFields gmp zendHash (type :: types) index (item :: items) = (do
      let out ← decodeValue gmp zendHash type item
      let outs ← decodeFields gmp zendHash types (index + 1) items
      some (if item.isNull then outs else (index, out) :: outs)) := by
  cases item with
  | null => simp [decodeFields, decodeValue, CassItem.isNull]
  | _ => simp [decodeFields, CassItem.isNull]

theorem decodeFields_eq_decodeKeyed {types : List CassType} {items : List CassItem}
    (lengths : types.length = items.length) (index : Nat) :
    decodeFields gmp zendHash types index items =
      decodeKeyed gmp zendHash ((types.zipIdx index).map Prod.swap) items := by
  induction types generalizing index items with
  | nil =>
      obtain rfl := List.length_eq_zero_iff.mp lengths.symm
      rfl
  | cons type types ih =>
      cases items with
      | nil => cases lengths
      | cons item items =>
          rw [decodeFields_cons, ih (Nat.succ.inj lengths)]
          rfl

theorem decodeFieldsByName_cons (name : List UInt8) (type : CassType)
    (types : List (List UInt8 × CassType)) (fieldName : List UInt8) (item : CassItem)
    (fields : List (List UInt8 × CassItem)) :
    decodeFieldsByName gmp zendHash ((name, type) :: types) ((fieldName, item) :: fields) = (do
      let out ← decodeValue gmp zendHash type item
      let outs ← decodeFieldsByName gmp zendHash types fields
      some (if item.isNull then outs else (name, out) :: outs)) := by
  cases item with
  | null => simp [decodeFieldsByName, decodeValue, CassItem.isNull]
  | _ => simp [decodeFieldsByName, CassItem.isNull]

theorem decodeFieldsByName_eq_decodeKeyed {types : List (List UInt8 × CassType)}
    {fields : List (List UInt8 × CassItem)} (lengths : types.length = fields.length) :
    decodeFieldsByName gmp zendHash types fields =
      decodeKeyed gmp zendHash types (fields.map Prod.snd) := by
  induction types generalizing fields with
  | nil =>
      obtain rfl := List.length_eq_zero_iff.mp lengths.symm
      rfl
  | cons field types ih =>
      cases fields with
      | nil => cases lengths
      | cons other fields =>
          rw [decodeFieldsByName_cons, ih (Nat.succ.inj lengths)]
          rfl

/-! What the encoders leave in a field is what was last put there. -/

theorem setFields_items {types : List CassType} {items result : List CassItem}
    {values : OrderedMap Nat Zval} (nodup : values.keys.Nodup)
    (taken : setFields gmp types items values = some result) :
    result.length = items.length ∧
      (∀ index, index ∉ values.keys → result[index]? = items[index]?) ∧
      ∀ index value, (index, value) ∈ values → ∃ type item, types[index]? = some type ∧
        encodeValue gmp .tupleField type value = some item ∧
        (index < items.length → result[index]? = some item) := by
  induction values generalizing items with
  | nil =>
      obtain rfl := Option.some.inj taken
      simp
  | cons field values ih =>
      obtain ⟨index, value⟩ := field
      rw [OrderedMap.keys, List.map_cons, List.nodup_cons] at nodup
      rw [setFields, Option.bind_eq_bind, Option.bind_eq_some_iff] at taken
      obtain ⟨type, typeAt, taken⟩ := taken
      split at taken
      · rw [Option.bind_eq_bind, Option.bind_eq_some_iff] at taken
        obtain ⟨item, encoded, taken⟩ := taken
        obtain ⟨length, untouched, touched⟩ := ih nodup.2 taken
        rw [List.length_set] at length touched
        refine ⟨length, ?_, ?_⟩
        · intro other missing
          rw [OrderedMap.keys, List.map_cons, List.mem_cons, not_or] at missing
          rw [untouched other missing.2, List.getElem?_set_ne (Ne.symm missing.1)]
        · intro other otherValue member
          rcases List.mem_cons.mp member with head | tail
          · obtain ⟨rfl, rfl⟩ := Prod.mk.inj head
            refine ⟨type, item, typeAt, encoded, fun inside => ?_⟩
            rw [untouched other nodup.1, List.getElem?_set_self inside]
          · exact touched other otherValue tail
      · cases taken

theorem exists_setFields {types : List CassType} {values : OrderedMap Nat Zval}
    (encodes : ∀ index value, (index, value) ∈ values → ∃ type item,
      types[index]? = some type ∧ validateObject value type = .accepted ∧
        encodeValue gmp .tupleField type value = some item) (items : List CassItem) :
    ∃ result, setFields gmp types items values = some result := by
  induction values generalizing items with
  | nil => exact ⟨items, rfl⟩
  | cons field values ih =>
      obtain ⟨index, value⟩ := field
      obtain ⟨type, item, typeAt, accepted, encoded⟩ := encodes index value List.mem_cons_self
      obtain ⟨result, taken⟩ := ih
        (fun other otherValue member => encodes other otherValue (List.mem_cons_of_mem _ member))
        (items.set index item)
      refine ⟨result, ?_⟩
      simp [setFields, typeAt, accepted, encoded, taken]

theorem getElem?_swap_zipIdx (types : List CassType) (index : Nat) :
    ((types.zipIdx 0).map Prod.swap)[index]? = (types[index]?).map fun type => (index, type) := by
  simp [List.getElem?_zipIdx, Function.comp_def]

theorem keys_swap_zipIdx (types : List CassType) :
    ((types.zipIdx 0).map Prod.swap).map Prod.fst = List.range types.length := by
  rw [List.map_map, List.range_eq_range', ← List.zipIdx_map_snd]
  rfl

theorem tuple_meaning_eq_iff (own types : List CassType) (lengths : own.length = types.length)
    (values outs : OrderedMap Nat Zval) :
    (Zval.tuple types outs).meaning = (Zval.tuple own values).meaning ↔
      ∀ index ∈ List.range types.length, fieldMeaning outs index = fieldMeaning values index := by
  simp only [Zval.meaning, Zval.indexedMeanings_eq_map, CassValue.tuple.injEq, lengths,
    List.map_inj_left]
  rfl

theorem tuple_returns_iff (position : Position) {own types : List CassType}
    (same : own.map CassType.canonical = types.map CassType.canonical)
    {values : OrderedMap Nat Zval} (typed : FieldsTyped (own[·]?) values) :
    Returns gmp zendHash position (.tuple types) (.tuple own values) ↔
      ∀ index value, (index, value) ∈ values →
        ∃ type, types[index]? = some type ∧ Returns gmp zendHash .tupleField type value := by
  have lengths : own.length = types.length := by
    simpa only [List.length_map] using congrArg List.length same
  have canonical (index : Nat) :
      (own[index]?).map CassType.canonical = (types[index]?).map CassType.canonical := by
    rw [← List.getElem?_map, ← List.getElem?_map, same]
  have walk : returned gmp zendHash position (.tuple types) (.tuple own values) =
      (setFields gmp own (List.replicate own.length .null) values).bind fun items =>
        (decodeFields gmp zendHash types 0 items).map (.tuple types) := by
    rw [returned]
    cases encoded : setFields gmp own (List.replicate own.length .null) values <;>
      simp [encodeValue, encoded, decodeValue]
  rw [Returns, walk]
  constructor
  · rintro ⟨_, taken, equal⟩
    obtain ⟨items, encoded, taken⟩ := Option.bind_eq_some_iff.mp taken
    obtain ⟨outs, decoded, rfl⟩ := Option.map_eq_some_iff.mp taken
    obtain ⟨length, _, touched⟩ := setFields_items typed.nodup encoded
    rw [List.length_replicate] at length touched
    rw [tuple_meaning_eq_iff own types lengths, ← keys_swap_zipIdx] at equal
    rw [decodeFields_eq_decodeKeyed (lengths.symm.trans length.symm)] at decoded
    have all := (decodeKeyed_iff (by simp [length, lengths])
      (by rw [keys_swap_zipIdx]; exact List.nodup_range) _).mp ⟨outs, decoded, equal⟩
    intro index value member
    obtain ⟨ownType, item, ownAt, encodedItem, got⟩ := touched index value member
    have inside : index < own.length := (List.getElem?_eq_some_iff.mp ownAt).1
    have typeAt := canonical index
    rw [ownAt, Option.map_some, eq_comm, Option.map_eq_some_iff] at typeAt
    obtain ⟨type, typeAt, sameType⟩ := typeAt
    obtain ⟨out, itemDecoded, meaning⟩ := all index index type item
      (by rw [getElem?_swap_zipIdx, typeAt]; rfl) (got inside)
    refine ⟨type, typeAt, out, ?_, by rw [meaning, fieldMeaning_of_mem typed.nodup member]⟩
    rw [returned, encodeValue_congr gmp sameType, encodedItem, Option.bind_some, itemDecoded]
  · intro all
    have encodes (index : Nat) (value : Zval) (member : (index, value) ∈ values) :
        ∃ type item, own[index]? = some type ∧ validateObject value type = .accepted ∧
          encodeValue gmp .tupleField type value = some item := by
      obtain ⟨type, typeAt, out, taken, _⟩ := all index value member
      obtain ⟨ownType, ownAt, accepted⟩ := typed.typed (index, value) member
      have sameType := canonical index
      rw [ownAt, typeAt, Option.map_some, Option.map_some, Option.some.injEq] at sameType
      obtain ⟨item, encoded, _⟩ := Option.bind_eq_some_iff.mp taken
      exact ⟨ownType, item, ownAt, accepted, by rw [encodeValue_congr gmp sameType, encoded]⟩
    obtain ⟨items, encoded⟩ := exists_setFields encodes (List.replicate own.length .null)
    obtain ⟨length, untouched, touched⟩ := setFields_items typed.nodup encoded
    rw [List.length_replicate] at length touched
    have decodes : ∃ outs,
        decodeKeyed gmp zendHash ((types.zipIdx 0).map Prod.swap) items = some outs ∧
          ∀ index ∈ ((types.zipIdx 0).map Prod.swap).map Prod.fst,
            fieldMeaning outs index = fieldMeaning values index :=
      (decodeKeyed_iff (by simp [length, lengths])
        (by rw [keys_swap_zipIdx]; exact List.nodup_range) (fieldMeaning values)).mpr (by
        intro index key type item keyedAt itemAt
        rw [getElem?_swap_zipIdx, Option.map_eq_some_iff] at keyedAt
        obtain ⟨_, typeAt, pair⟩ := keyedAt
        obtain ⟨rfl, rfl⟩ := Prod.mk.inj pair
        have inside : index < own.length := by
          rw [lengths]
          exact (List.getElem?_eq_some_iff.mp typeAt).1
        by_cases present : index ∈ values.keys
        · obtain ⟨⟨other, value⟩, member, sameIndex⟩ := List.mem_map.mp present
          obtain rfl : other = index := sameIndex
          obtain ⟨_, otherAt, out, taken, meaning⟩ := all other value member
          obtain rfl := Option.some.inj (typeAt.symm.trans otherAt)
          obtain ⟨ownType, _, ownAt, encodedItem, got⟩ := touched other value member
          obtain rfl := Option.some.inj (itemAt.symm.trans (got inside))
          have sameType := canonical other
          rw [ownAt, typeAt, Option.map_some, Option.map_some, Option.some.injEq] at sameType
          rw [returned, ← encodeValue_congr gmp sameType, encodedItem, Option.bind_some] at taken
          exact ⟨out, taken, by rw [meaning, fieldMeaning_of_mem typed.nodup member]⟩
        · have unset := untouched index present
          rw [itemAt, List.getElem?_replicate_of_lt inside] at unset
          obtain rfl := Option.some.inj unset
          refine ⟨.null, by rw [decodeValue], ?_⟩
          rw [fieldMeaning_of_notMem present]
          rfl)
    obtain ⟨outs, decoded, equal⟩ := decodes
    refine ⟨.tuple types outs, ?_, ?_⟩
    · rw [encoded, Option.bind_some, decodeFields_eq_decodeKeyed (lengths.symm.trans length.symm),
        decoded]
      rfl
    · rw [tuple_meaning_eq_iff own types lengths, ← keys_swap_zipIdx]
      exact equal
end PhpDriver
