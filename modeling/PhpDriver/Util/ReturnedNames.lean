import PhpDriver.Util.Carried
import PhpDriver.Util.ReturnedFields

namespace PhpDriver

open Data

/-! User type values. Their encoder puts every stored field under one and the same name. -/

variable {gmp : Gmp} {zendHash : List UInt8 → BitVec 32}

theorem setFieldsByName_items {types : OrderedMap (List UInt8) CassType}
    {fields result : OrderedMap (List UInt8) CassItem} {values : OrderedMap (List UInt8) Zval}
    (names : fields.keys = types.keys)
    (taken : setFieldsByName gmp types fields values = some result) :
    result.keys = types.keys ∧
      (∀ name, name ≠ fieldName → result.get name = fields.get name) ∧
      ∀ before name value after, values = before ++ (name, value) :: after →
        ∃ type item, types.get fieldName = some type ∧
          encodeValue gmp .userTypeField type value = some item ∧
          (after = [] → result.get fieldName = some item) := by
  induction values generalizing fields with
  | nil =>
      obtain rfl := Option.some.inj taken
      exact ⟨names, fun _ _ => rfl, fun before _ _ _ split => by cases before <;> cases split⟩
  | cons field values ih =>
      obtain ⟨name, value⟩ := field
      rw [setFieldsByName, Option.bind_eq_bind, Option.bind_eq_some_iff] at taken
      obtain ⟨type, typeEq, taken⟩ := taken
      split at taken
      · rw [Option.bind_eq_bind, Option.bind_eq_some_iff] at taken
        obtain ⟨item, encoded, taken⟩ := taken
        have present : fieldName ∈ fields.keys := by
          rw [names, OrderedMap.mem_keys_iff, typeEq]
          rfl
        obtain ⟨keys, untouched, touched⟩ :=
          ih (by rw [OrderedMap.keys_set, if_pos present, names]) taken
        refine ⟨keys, ?_, ?_⟩
        · intro other differs
          rw [untouched other differs, OrderedMap.get_set, if_neg differs]
        · intro before other otherValue after split
          cases before with
          | nil =>
              obtain ⟨head, rfl⟩ := List.cons.inj split
              obtain ⟨rfl, rfl⟩ := Prod.mk.inj head
              refine ⟨type, item, typeEq, encoded, ?_⟩
              rintro rfl
              obtain rfl := Option.some.inj taken
              rw [OrderedMap.get_set, if_pos rfl]
          | cons first before =>
              obtain ⟨_, rest⟩ := List.cons.inj split
              exact touched before other otherValue after rest
      · cases taken

theorem exists_setFieldsByName {types : OrderedMap (List UInt8) CassType}
    {values : OrderedMap (List UInt8) Zval}
    (encodes : ∀ name value, (name, value) ∈ values → ∃ type item,
      types.get fieldName = some type ∧ validateObject value type = .accepted ∧
        encodeValue gmp .userTypeField type value = some item)
    (fields : OrderedMap (List UInt8) CassItem) :
    ∃ result, setFieldsByName gmp types fields values = some result := by
  induction values generalizing fields with
  | nil => exact ⟨fields, rfl⟩
  | cons field values ih =>
      obtain ⟨name, value⟩ := field
      obtain ⟨type, item, typeEq, accepted, encoded⟩ := encodes name value List.mem_cons_self
      obtain ⟨result, taken⟩ := ih
        (fun other otherValue member => encodes other otherValue (List.mem_cons_of_mem _ member))
        (fields.set fieldName item)
      refine ⟨result, ?_⟩
      simp [setFieldsByName, typeEq, accepted, encoded, taken]

def FieldsReturn (gmp : Gmp) (zendHash : List UInt8 → BitVec 32)
    (types : OrderedMap (List UInt8) CassType) (values : OrderedMap (List UInt8) Zval)
    (fields : OrderedMap (List UInt8) CassItem) : Prop :=
  ∀ name type item, types.get name = some type → fields.get name = some item →
    ∃ out, decodeValue gmp zendHash type item = some out ∧
      out.meaning = fieldMeaning values name

theorem userTypeValue_meaning_eq_iff {own types : OrderedMap (List UInt8) CassType}
    (names : own.keys = types.keys) (values outs : OrderedMap (List UInt8) Zval) :
    (Zval.userTypeValue types outs).meaning = (Zval.userTypeValue own values).meaning ↔
      ∀ name ∈ types.keys, fieldMeaning outs name = fieldMeaning values name := by
  have fields (types : OrderedMap (List UInt8) CassType)
      (outs : OrderedMap (List UInt8) Zval) :
      (Zval.userTypeValue types outs).meaning =
        .userType (types.keys.map fun name => (name, fieldMeaning outs name)) := by
    rw [Zval.meaning, Zval.namedMeanings_eq_map, OrderedMap.keys, List.map_map]
    rfl
  rw [fields, fields, names, CassValue.userType.injEq, List.map_inj_left]
  simp

theorem userTypeValue_returns_iff_fields (position : Position)
    {own types : OrderedMap (List UInt8) CassType} (names : own.keys = types.keys)
    (nodup : own.keys.Nodup) (values : OrderedMap (List UInt8) Zval) :
    Returns gmp zendHash position (.userType types) (.userTypeValue own values) ↔
      ∃ fields, setFieldsByName gmp own (own.map fun field => (field.1, .null)) values =
          some fields ∧ FieldsReturn gmp zendHash types values fields := by
  have walk : returned gmp zendHash position (.userType types) (.userTypeValue own values) =
      (setFieldsByName gmp own (own.map fun field => (field.1, .null)) values).bind
        fun fields =>
          (decodeFieldsByName gmp zendHash types fields).map (.userTypeValue types) := by
    rw [returned]
    cases encoded : setFieldsByName gmp own (own.map fun field => (field.1, .null)) values <;>
      simp [encodeValue, encoded, decodeValue]
  rw [Returns, walk]
  have initial : OrderedMap.keys (own.map fun field => (field.1, CassItem.null)) = own.keys := by
    rw [OrderedMap.keys, List.map_map]
    rfl
  have decodes {fields : OrderedMap (List UInt8) CassItem}
      (encoded : setFieldsByName gmp own (own.map fun field => (field.1, .null)) values =
        some fields) :
      (∃ outs, decodeFieldsByName gmp zendHash types fields = some outs ∧
        ∀ name ∈ types.keys, fieldMeaning outs name = fieldMeaning values name) ↔
      FieldsReturn gmp zendHash types values fields := by
    have keys := (setFieldsByName_items initial encoded).1.trans names
    have lengths : types.length = fields.length := by
      simpa only [OrderedMap.keys, List.length_map] using (congrArg List.length keys).symm
    rw [decodeFieldsByName_eq_decodeKeyed lengths]
    have typesNodup : types.keys.Nodup := by rwa [← names]
    exact (decodeKeyed_iff (by rw [lengths, List.length_map]) typesNodup _).trans
      (OrderedMap.forall_getElem?_iff keys.symm typesNodup)
  constructor
  · rintro ⟨_, taken, equal⟩
    obtain ⟨fields, encoded, taken⟩ := Option.bind_eq_some_iff.mp taken
    obtain ⟨outs, decoded, rfl⟩ := Option.map_eq_some_iff.mp taken
    exact ⟨fields, encoded,
      (decodes encoded).mp ⟨outs, decoded, (userTypeValue_meaning_eq_iff names _ _).mp equal⟩⟩
  · rintro ⟨fields, encoded, all⟩
    obtain ⟨outs, decoded, equal⟩ := (decodes encoded).mpr all
    exact ⟨.userTypeValue types outs, by rw [encoded, Option.bind_some, decoded]; rfl,
      (userTypeValue_meaning_eq_iff names _ _).mpr equal⟩

section

variable {own types : OrderedMap (List UInt8) CassType}
variable {values : OrderedMap (List UInt8) Zval} {fields : OrderedMap (List UInt8) CassItem}

/-- The aliases of a user type have its names, with aliases of its types. -/
structure SameFields (own types : OrderedMap (List UInt8) CassType) : Prop where
  names : own.keys = types.keys
  types : ∀ name, (own.get name).map CassType.canonical = (types.get name).map CassType.canonical

theorem SameFields.exists_type (same : SameFields own types) {name : List UInt8}
    {ownType : CassType} (ownEq : own.get name = some ownType) :
    ∃ type, types.get name = some type ∧ ownType.canonical = type.canonical := by
  have typeEq := same.types name
  rw [ownEq, Option.map_some, eq_comm, Option.map_eq_some_iff] at typeEq
  obtain ⟨type, typeEq, canonical⟩ := typeEq
  exact ⟨type, typeEq, canonical.symm⟩

theorem FieldsReturn.isNull (fieldsReturn : FieldsReturn gmp zendHash types values fields)
    (same : SameFields own types) (typed : FieldsTyped own.get values) {name : List UInt8}
    {value : Zval} (member : (name, value) ∈ values) (null : fields.get name = some .null) :
    value.isNull := by
  obtain ⟨ownType, ownEq, _⟩ := typed.typed _ member
  obtain ⟨type, typeEq, _⟩ := same.exists_type ownEq
  obtain ⟨out, decoded, meaning⟩ := fieldsReturn name type .null typeEq null
  rw [decodeValue, Option.some.injEq] at decoded
  rw [← decoded, fieldMeaning_of_mem typed.nodup member] at meaning
  rw [← Zval.meaning_eq_null_iff, ← meaning]
  rfl

theorem get_initial (own : OrderedMap (List UInt8) CassType) (name : List UInt8) :
    OrderedMap.get (own.map fun field => (field.1, CassItem.null)) name =
      (own.get name).map fun _ => .null :=
  OrderedMap.get_map own name fun _ => CassItem.null

theorem keys_initial (own : OrderedMap (List UInt8) CassType) :
    OrderedMap.keys (own.map fun field => (field.1, CassItem.null)) = own.keys := by
  rw [OrderedMap.keys, List.map_map]
  rfl

theorem FieldsReturn.isNull_of_ne
    (fieldsReturn : FieldsReturn gmp zendHash types values fields)
    (same : SameFields own types) (typed : FieldsTyped own.get values)
    (encoded : setFieldsByName gmp own (own.map fun field => (field.1, .null)) values =
      some fields) {name : List UInt8} {value : Zval} (member : (name, value) ∈ values)
    (differs : name ≠ fieldName) : value.isNull := by
  refine fieldsReturn.isNull same typed member ?_
  obtain ⟨_, untouched, _⟩ := setFieldsByName_items (keys_initial own) encoded
  obtain ⟨ownType, ownEq, _⟩ := typed.typed _ member
  rw [untouched name differs, get_initial, ownEq, Option.map_some]

theorem FieldsTyped.notMem_after (typed : FieldsTyped own.get values)
    {before after : List (List UInt8 × Zval)} {name : List UInt8} {value : Zval}
    (split : values = before ++ (name, value) :: after) : name ∉ after.map Prod.fst := by
  have nodup := typed.nodup
  rw [split, OrderedMap.keys, List.map_append, List.map_cons, List.nodup_append',
    List.nodup_cons] at nodup
  exact nodup.2.1.1

theorem FieldsReturn.namesCarried (fieldsReturn : FieldsReturn gmp zendHash types values fields)
    (same : SameFields own types) (typed : FieldsTyped own.get values)
    (encoded : setFieldsByName gmp own (own.map fun field => (field.1, .null)) values =
      some fields) : NamesCarried own values := by
  have nullOf {name : List UInt8} {value : Zval} (member : (name, value) ∈ values)
      (differs : name ≠ fieldName) : value.isNull :=
    fieldsReturn.isNull_of_ne same typed encoded member differs
  obtain ⟨_, _, touched⟩ := setFieldsByName_items (keys_initial own) encoded
  intro before name value after split differs
  refine ⟨nullOf (by simp [split]) differs, ?_, fun other earlier => ?_⟩
  · obtain ⟨type, _, typeEq, _⟩ := touched before name value after split
    rw [OrderedMap.mem_keys_iff, typeEq]
    rfl
  obtain ⟨front, ⟨last, lastValue⟩, lastSplit⟩ :
      ∃ front last, values = front ++ [last] := by
    rcases List.eq_nil_or_concat' values with empty | concat
    · simp [empty] at split
    · exact concat
  -- the field that comes last is not the one of that name, and leaves a null there
  have lastDiffers : last ≠ fieldName := by
    rintro rfl
    rcases append_singleton_eq_iff.mp (lastSplit.symm.trans split) with
      ⟨_, head, _⟩ | ⟨shorter, rfl, _⟩
    · exact differs (congrArg Prod.fst head).symm
    · obtain ⟨first, second, rfl⟩ := List.append_of_mem earlier
      have again : values = first ++ (fieldName, other) ::
          (second ++ (name, value) :: (shorter ++ [(fieldName, lastValue)])) := by
        simp [split]
      exact typed.notMem_after again (by simp)
  obtain ⟨_, item, _, lastEncoded, left⟩ := touched front last lastValue [] lastSplit
  rw [(Zval.isNull_iff lastValue).mp (nullOf (by simp [lastSplit]) lastDiffers), encodeValue,
    nullItem, Option.some.injEq] at lastEncoded
  have earlierIn : (fieldName, other) ∈ values := by simp [split, earlier]
  refine fieldsReturn.isNull same typed earlierIn ?_
  rw [left rfl, lastEncoded]

theorem FieldsReturn.returns (fieldsReturn : FieldsReturn gmp zendHash types values fields)
    (same : SameFields own types) (typed : FieldsTyped own.get values)
    (encoded : setFieldsByName gmp own (own.map fun field => (field.1, .null)) values =
      some fields) {name : List UInt8} {value : Zval} (member : (name, value) ∈ values) :
    ∃ type, types.get name = some type ∧
      Returns gmp zendHash .userTypeField type value := by
  obtain ⟨_, ownEq, _⟩ := typed.typed _ member
  obtain ⟨type, typeEq, canonical⟩ := same.exists_type ownEq
  refine ⟨type, typeEq, ?_⟩
  cases null : value.isNull with
  | true =>
      rw [(Zval.isNull_iff value).mp null]
      exact returns_null (by decide) type
  | false =>
      obtain rfl : name = fieldName := by
        by_contra differs
        have isNull := fieldsReturn.isNull_of_ne same typed encoded member differs
        rw [null] at isNull
        cases isNull
      obtain ⟨before, after, split⟩ := List.append_of_mem member
      obtain ⟨_, _, touched⟩ := setFieldsByName_items (keys_initial own) encoded
      obtain ⟨ownType, item, ownEq', itemEncoded, left⟩ :=
        touched before fieldName value after split
      have noneLater : after = [] := by
        by_contra more
        obtain ⟨⟨later, laterValue⟩, rest, rfl⟩ := List.exists_cons_of_ne_nil more
        have differs : later ≠ fieldName := by
          rintro rfl
          exact typed.notMem_after split (by simp)
        have overwritten := (fieldsReturn.namesCarried same typed encoded
          (before ++ [(fieldName, value)]) later laterValue rest
          (by simp [split]) differs).2.2 value (by simp)
        rw [null] at overwritten
        cases overwritten
      obtain rfl := Option.some.inj (ownEq.symm.trans ownEq')
      obtain ⟨out, decoded, meaning⟩ :=
        fieldsReturn fieldName type item typeEq (left noneLater)
      refine ⟨out, ?_, by rw [meaning, fieldMeaning_of_mem typed.nodup member]⟩
      rw [returned, ← encodeValue_congr gmp canonical, itemEncoded, Option.bind_some, decoded]

theorem exists_encoded_fields (same : SameFields own types) (typed : FieldsTyped own.get values)
    (names : NamesCarried own values)
    (return_ : ∀ name value, (name, value) ∈ values → ∃ type, types.get name = some type ∧
      Returns gmp zendHash .userTypeField type value) :
    ∃ fields, setFieldsByName gmp own (own.map fun field => (field.1, .null)) values =
      some fields := by
  apply exists_setFieldsByName
  intro name value member
  by_cases named : name = fieldName
  · subst named
    obtain ⟨ownType, ownEq, accepted⟩ := typed.typed _ member
    obtain ⟨type, typeEq, canonical⟩ := same.exists_type ownEq
    obtain ⟨_, typeEq', out, taken, _⟩ := return_ fieldName value member
    obtain rfl := Option.some.inj (typeEq.symm.trans typeEq')
    obtain ⟨item, encoded, _⟩ := Option.bind_eq_some_iff.mp taken
    exact ⟨ownType, item, ownEq, accepted, by rw [encodeValue_congr gmp canonical, encoded]⟩
  · obtain ⟨before, after, split⟩ := List.append_of_mem member
    obtain ⟨null, present, _⟩ := names before name value after split named
    obtain ⟨type, typeEq⟩ := Option.isSome_iff_exists.mp
      ((OrderedMap.mem_keys_iff own _).mp present)
    rw [(Zval.isNull_iff value).mp null]
    exact ⟨type, .null, typeEq, validateObject_null type, by rw [encodeValue, nullItem]⟩

theorem fieldsReturn_of_returns (same : SameFields own types)
    (typed : FieldsTyped own.get values) (names : NamesCarried own values)
    (return_ : ∀ name value, (name, value) ∈ values → ∃ type, types.get name = some type ∧
      Returns gmp zendHash .userTypeField type value)
    (encoded : setFieldsByName gmp own (own.map fun field => (field.1, .null)) values =
      some fields) : FieldsReturn gmp zendHash types values fields := by
  obtain ⟨_, untouched, touched⟩ := setFieldsByName_items (keys_initial own) encoded
  have nullReturns (name : List UInt8) (type : CassType)
      (nulls : ∀ value, (name, value) ∈ values → value.isNull) :
      ∃ out, decodeValue gmp zendHash type .null = some out ∧
        out.meaning = fieldMeaning values name := by
    refine ⟨.null, by rw [decodeValue], ?_⟩
    by_cases present : name ∈ values.keys
    · obtain ⟨⟨_, value⟩, member, rfl⟩ := List.mem_map.mp present
      rw [fieldMeaning_of_mem typed.nodup member,
        (Zval.meaning_eq_null_iff value).mpr (nulls value member)]
      rfl
    · rw [fieldMeaning_of_notMem present]
      rfl
  intro name type item typeEq itemEq
  have untouchedNull (initial : fields.get name =
      OrderedMap.get (own.map fun field => (field.1, CassItem.null)) name) : item = .null := by
    rw [itemEq, get_initial, eq_comm, Option.map_eq_some_iff] at initial
    obtain ⟨_, _, rfl⟩ := initial
    rfl
  by_cases named : name = fieldName
  · subst named
    rcases List.eq_nil_or_concat' values with rfl | ⟨before, ⟨last, value⟩, split⟩
    · obtain rfl := Option.some.inj encoded
      rw [untouchedNull rfl]
      exact nullReturns fieldName type (by simp)
    · have member : (last, value) ∈ values := by simp [split]
      obtain ⟨ownType, lastItem, ownEq, itemEncoded, left⟩ :=
        touched before last value [] split
      obtain rfl := Option.some.inj (itemEq.symm.trans (left rfl))
      by_cases lastNamed : last = fieldName
      · subst lastNamed
        obtain ⟨_, typeEq', out, taken, meaning⟩ := return_ fieldName value member
        obtain rfl := Option.some.inj (typeEq.symm.trans typeEq')
        have canonical := same.types fieldName
        rw [ownEq, typeEq, Option.map_some, Option.map_some, Option.some.injEq] at canonical
        rw [returned, ← encodeValue_congr gmp canonical, itemEncoded, Option.bind_some] at taken
        exact ⟨out, taken, by rw [meaning, fieldMeaning_of_mem typed.nodup member]⟩
      · obtain ⟨null, _, earlier⟩ := names before last value [] split lastNamed
        rw [(Zval.isNull_iff value).mp null, encodeValue, nullItem,
          Option.some.injEq] at itemEncoded
        rw [← itemEncoded]
        apply nullReturns fieldName type
        intro other otherIn
        rw [split, List.mem_append, List.mem_singleton] at otherIn
        rcases otherIn with first | equal
        · exact earlier other first
        · exact absurd (congrArg Prod.fst equal).symm lastNamed
  · rw [untouchedNull (untouched name named)]
    apply nullReturns name type
    intro value member
    obtain ⟨before, after, split⟩ := List.append_of_mem member
    exact (names before name value after split named).1

theorem userTypeValue_returns_iff (position : Position) (same : SameFields own types)
    (nodup : own.keys.Nodup) (typed : FieldsTyped own.get values) :
    Returns gmp zendHash position (.userType types) (.userTypeValue own values) ↔
      NamesCarried own values ∧ ∀ name value, (name, value) ∈ values →
        ∃ type, types.get name = some type ∧
          Returns gmp zendHash .userTypeField type value := by
  rw [userTypeValue_returns_iff_fields position same.names nodup]
  constructor
  · rintro ⟨fields, encoded, fieldsReturn⟩
    exact ⟨fieldsReturn.namesCarried same typed encoded,
      fun name value member => fieldsReturn.returns same typed encoded member⟩
  · rintro ⟨names, return_⟩
    obtain ⟨fields, encoded⟩ := exists_encoded_fields same typed names return_
    exact ⟨fields, encoded, fieldsReturn_of_returns same typed names return_ encoded⟩

end

end PhpDriver