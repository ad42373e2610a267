import PhpDriver.Util.Delivered

namespace PhpDriver

open Data Data.Outcome

/-! `php_driver_value` keeps everything exactly when nothing in the value is lost. -/

/-- The value is all that was delivered exactly when nothing of it can be lost. -/
def Settles (zendHash : List UInt8 → BitVec 32) (meaning : CassValue) (out : Zval)
    (thrown : List Thrown) : Prop :=
  (thrown = [] ∧ out.meaning = meaning) ↔ ¬ Lossy zendHash meaning

variable {gmp : Gmp} {zendHash : List UInt8 → BitVec 32}

theorem not_lossy_scalar (value : Scalar) : ¬ Lossy zendHash (.scalar value) := by
  intro lossy
  cases lossy

theorem not_lossy_null : ¬ Lossy zendHash .null := by
  intro lossy
  cases lossy

theorem Settles.exact {meaning : CassValue} {out : Zval} {thrown : List Thrown}
    (settles : Settles zendHash meaning out thrown) (safe : ¬ Lossy zendHash meaning) :
    thrown = [] ∧ out.meaning = meaning :=
  settles.mpr safe

theorem settles_of_safe {meaning : CassValue} {out : Zval} (safe : ¬ Lossy zendHash meaning)
    (same : out.meaning = meaning) : Settles zendHash meaning out [] :=
  iff_of_true ⟨rfl, same⟩ safe

theorem driverScalar_meets (type : ScalarType) (content : CassScalar) :
    (driverScalar gmp type content).Meets (scalarHazards gmp type content)
      fun value thrown => thrown = [] ∧ decodeScalar gmp type content = some value := by
  have some_ {bytes : List UInt8} (nonempty : bytes ≠ []) :=
    importTwosComplement_eq gmp nonempty
  unfold driverScalar
  split
  · rename_i bytes
    cases bytes with
    | nil => exact rfl
    | cons first rest =>
        rw [some_ (List.cons_ne_nil _ _)]
        simp [scalarHazards, decodeScalar, some_ (List.cons_ne_nil _ _), Outcome.ofOption, Meets]
  · rename_i varint scale
    cases varint with
    | nil => exact rfl
    | cons first rest =>
        rw [some_ (List.cons_ne_nil _ _)]
        simp [scalarHazards, decodeScalar, some_ (List.cons_ne_nil _ _), Outcome.ofOption, Meets]
  · rename_i noVarint noDecimal
    have shape : scalarHazards gmp type content =
        if (decodeScalar gmp type content).isSome then [] else [.failure] := by
      unfold scalarHazards
      split
      · exact absurd rfl (noVarint [] rfl)
      · exact absurd rfl (noDecimal [] _ rfl)
      · rfl
    rw [shape]
    cases decodeScalar gmp type content with
    | none => exact rfl
    | some value => exact ⟨rfl, rfl, rfl⟩

theorem not_lossy_itemMeaning_scalar (type : ScalarType) (item : CassItem) :
    ¬ Lossy zendHash (itemMeaning gmp (.scalar type) item) := by
  cases item with
  | scalar content =>
      rw [itemMeaning]
      cases decodeScalar gmp type content with
      | none => exact not_lossy_null
      | some value => exact not_lossy_scalar _
  | _ => exact not_lossy_null

theorem itemMeaning_of_givesNull {type : CassType} {item : CassItem}
    (null : item.givesNull type = true) : itemMeaning gmp type item = .null := by
  cases item <;> cases type <;> first | rfl | cases null

theorem isNull_of_decodeValue {type : CassType} {item : CassItem} {out : Zval}
    (decoded : decodeValue gmp zendHash type item = some out) :
    out.isNull = item.givesNull type := by
  unfold decodeValue at decoded
  split at decoded
  · obtain rfl := Option.some.inj decoded
    rfl
  · obtain rfl := Option.some.inj decoded
    cases item <;> rfl
  · obtain ⟨_, _, rfl⟩ := Option.map_eq_some_iff.mp decoded
    rfl
  · obtain ⟨_, _, rfl⟩ := Option.map_eq_some_iff.mp decoded
    rfl
  · simp only [Option.bind_eq_bind, Option.bind_eq_some_iff] at decoded
    obtain ⟨_, _, map, _, decoded⟩ := decoded
    obtain rfl := Option.some.inj decoded
    rfl
  · simp only [Option.bind_eq_bind, Option.bind_eq_some_iff] at decoded
    obtain ⟨_, _, set, _, decoded⟩ := decoded
    obtain rfl := Option.some.inj decoded
    rfl
  · obtain ⟨_, _, rfl⟩ := Option.map_eq_some_iff.mp decoded
    rfl
  · obtain ⟨_, _, rfl⟩ := Option.map_eq_some_iff.mp decoded
    rfl
  · cases decoded

theorem valueHash_isSome_iff {type : CassType} {value : Zval} (fits : Fits type value) :
    (valueHash zendHash value).isSome ↔ type.hasHash := by
  have accepted := fits.accepted
  cases value with
  | null => cases fits.nonnull
  | foreign => exact absurd accepted (validateObject_foreign type)
  | scalar value =>
      obtain ⟨scalarType, rfl, holds⟩ := (validateObject_scalar_iff value type).mp accepted
      cases scalarType.instance_of holds <;>
        simp [valueHash, hashValue, CassType.hasHash, CassType.isPlain]
  | _ =>
      cases type with
      | scalar scalarType => simp [validateObject] at accepted
      | _ => simp [valueHash, hashValue, CassType.hasHash, CassType.isPlain]

theorem meets_decoded {type : CassType} {item : CassItem} {hazards : List Hazard}
    {property : Zval → List Thrown → Prop}
    (meets : (driverValue gmp zendHash type item).Meets hazards property) :
    (driverValue gmp zendHash type item).Meets hazards fun value thrown =>
      property value thrown ∧ decodeValue gmp zendHash type item = some value := by
  have same := @toOption_driverValue gmp zendHash type item
  cases outcome : driverValue gmp zendHash type item with
  | undefined | failure _ =>
      rw [outcome] at meets
      exact meets
  | success value thrown =>
      rw [outcome] at meets same
      exact ⟨meets.1, meets.2, same.symm⟩

theorem settles_list {meanings : List CassValue} {outs : List Zval} {thrown : List Thrown}
    (valueType : CassType)
    (settle : (thrown = [] ∧ outs.map Zval.meaning = meanings) ↔
      ∀ meaning ∈ meanings, ¬ Lossy zendHash meaning) :
    Settles zendHash (.list meanings) (.collection valueType outs) thrown := by
  rw [Settles, Zval.meaning, Zval.meanings_eq_map, CassValue.list.injEq, settle]
  constructor
  · intro safe lossy
    cases lossy with
    | element member lossy => exact safe _ member lossy
  · exact fun safe meaning member lossy => safe (.element member lossy)

structure SetFetched (zendHash : List UInt8 → BitVec 32) (valueType : CassType)
    (meanings : List CassValue) (set : PhpSet) (thrown : List Thrown) : Prop where
  type : set.valueType = valueType
  built : WellBuilt zendHash set.valueType set.entries
  nulls : thrown = [] ↔ .null ∉ meanings
  values : ∀ value ∈ set.values, value.meaning ∈ meanings
  exact : .null ∉ meanings → (∀ first ∈ meanings, ∀ second ∈ meanings,
      first.slot zendHash = second.slot zendHash → first = second) →
    set.values.map Zval.meaning = meanings.eraseDups

theorem eraseDups_append_of_mem {α : Type} [BEq α] [LawfulBEq α] {values : List α} {value : α}
    (member : value ∈ values) : (values ++ [value]).eraseDups = values.eraseDups := by
  have none_ : [value].removeAll values = [] := by simp [List.removeAll, member]
  rw [List.eraseDups_append, none_, List.eraseDups_nil, List.append_nil]

theorem eraseDups_append_of_notMem {α : Type} [BEq α] [LawfulBEq α] {values : List α}
    {value : α} (missing : value ∉ values) :
    (values ++ [value]).eraseDups = values.eraseDups ++ [value] := by
  have one : [value].removeAll values = [value] := by simp [List.removeAll, missing]
  rw [List.eraseDups_append, one, List.eraseDups_cons]
  simp

section

variable {valueType : CassType} {meanings : List CassValue} {set : PhpSet} {thrown : List Thrown}

theorem SetFetched.start (valueType : CassType) :
    SetFetched zendHash valueType [] { valueType } [] where
  type := rfl
  built := .empty
  nulls := by simp
  values := by simp [PhpSet.values]
  exact := fun _ _ => rfl

theorem SetFetched.null (fetched : SetFetched zendHash valueType meanings set thrown)
    (error : Thrown) :
    SetFetched zendHash valueType (meanings ++ [.null]) set (thrown ++ [error]) where
  type := fetched.type
  built := fetched.built
  nulls := by simp
  values := fun value member => List.mem_append_left _ (fetched.values value member)
  exact := by simp

theorem SetFetched.add (fetched : SetFetched zendHash valueType meanings set thrown)
    {value : Zval} {next : PhpSet} (nonnull : value.isNull = false)
    (type : next.valueType = set.valueType)
    (built : WellBuilt zendHash next.valueType next.entries)
    (added : (∃ other ∈ set.values, other.meaning.slot zendHash = value.meaning.slot zendHash) ∧
        next.values = set.values ∨
      (∀ other ∈ set.values, other.meaning.slot zendHash ≠ value.meaning.slot zendHash) ∧
        next.values = set.values ++ [value]) :
    SetFetched zendHash valueType (meanings ++ [value.meaning]) next thrown := by
  have notNull : value.meaning ≠ .null := by
    rw [ne_eq, Zval.meaning_eq_null_iff, nonnull]
    exact Bool.false_ne_true
  have nulls : .null ∉ meanings ++ [value.meaning] ↔ .null ∉ meanings := by
    simp [notNull.symm]
  refine ⟨type.trans fetched.type, built, fetched.nulls.trans nulls.symm, ?_, ?_⟩
  · intro other member
    rcases added with ⟨_, same⟩ | ⟨_, more⟩
    · rw [same] at member
      exact List.mem_append_left _ (fetched.values other member)
    · rw [more, List.mem_append, List.mem_singleton] at member
      rcases member with old | rfl
      · exact List.mem_append_left _ (fetched.values other old)
      · exact List.mem_append_right _ (List.mem_singleton_self _)
  · intro noNull apart
    have before := fetched.exact (nulls.mp noNull) fun first firstIn second secondIn =>
      apart first (List.mem_append_left _ firstIn) second (List.mem_append_left _ secondIn)
    have last : value.meaning ∈ meanings ++ [value.meaning] :=
      List.mem_append_right _ (List.mem_singleton_self _)
    rcases added with ⟨⟨other, member, slot⟩, same⟩ | ⟨others, more⟩
    · have known := fetched.values other member
      rw [apart _ (List.mem_append_left _ known) _ last slot] at known
      rw [same, eraseDups_append_of_mem known, before]
    · have missing : value.meaning ∉ meanings := by
        intro member
        rw [← List.mem_eraseDups, ← before, List.mem_map] at member
        obtain ⟨other, inSet, same⟩ := member
        exact others other inSet (by rw [same])
      rw [more, eraseDups_append_of_notMem missing, List.map_append, before]
      rfl

theorem SetFetched.settles (fetched : SetFetched zendHash valueType meanings set thrown) :
    Settles zendHash (.set meanings.eraseDups) set.toZval thrown := by
  rw [Settles, PhpSet.toZval, Zval.meaning, Zval.meanings_eq_map, CassValue.set.injEq,
    fetched.nulls]
  constructor
  · rintro ⟨noNull, same⟩ lossy
    cases lossy with
    | setNull null => exact noNull (List.mem_eraseDups.mp null)
    | setMerged firstIn secondIn differ slot =>
        rw [← same, List.mem_map] at firstIn secondIn
        obtain ⟨first, firstIn, rfl⟩ := firstIn
        obtain ⟨second, secondIn, rfl⟩ := secondIn
        rw [PhpSet.values, List.mem_map] at firstIn secondIn
        obtain ⟨one, oneIn, rfl⟩ := firstIn
        obtain ⟨other, otherIn, rfl⟩ := secondIn
        have equal := fetched.built.eq_of_slot (List.mem_map_of_mem oneIn)
          (List.mem_map_of_mem otherIn) slot
        exact differ (congrArg (fun handle => handle.key.meaning) equal)
  · intro safe
    have noNull : .null ∉ meanings := fun member =>
      safe (.setNull (List.mem_eraseDups.mpr member))
    refine ⟨noNull, fetched.exact noNull fun first firstIn second secondIn slot => ?_⟩
    by_contra differ
    exact safe (.setMerged (List.mem_eraseDups.mpr firstIn) (List.mem_eraseDups.mpr secondIn)
      differ slot)

end

/-- Entries with a null have been refused, and each slot has its first key with its last
value. -/
structure MapFetched (zendHash : List UInt8 → BitVec 32) (keyType valueType : CassType)
    (meanings : List (CassValue × CassValue)) (map : PhpMap) (thrown : List Thrown) : Prop where
  keyTypeEq : map.keyType = keyType
  valueTypeEq : map.valueType = valueType
  built : WellBuilt zendHash map.keyType map.entries
  nulls : thrown = [] → ∀ entry ∈ meanings, entry.1 ≠ .null ∧ entry.2 ≠ .null
  values : ∀ entry ∈ map.pairsInOrder, ∃ origin ∈ meanings,
    origin.1.slot zendHash = entry.1.meaning.slot zendHash ∧
      ∃ some_, Settles zendHash origin.2 entry.2 some_ ∧ (thrown = [] → some_ = [])
  exact : (∀ entry ∈ meanings, entry.1 ≠ .null ∧ entry.2 ≠ .null ∧ ¬ Lossy zendHash entry.2) →
    (∀ first ∈ meanings, ∀ second ∈ meanings,
      first.1.slot zendHash = second.1.slot zendHash → first = second) →
    thrown = [] ∧ map.pairsInOrder.map (fun entry => (entry.1.meaning, entry.2.meaning)) =
      meanings.eraseDups

section

variable {keyType valueType : CassType} {meanings : List (CassValue × CassValue)} {map : PhpMap}
  {thrown : List Thrown}

theorem MapFetched.start (keyType valueType : CassType) :
    MapFetched zendHash keyType valueType [] { keyType, valueType } [] where
  keyTypeEq := rfl
  valueTypeEq := rfl
  built := .empty
  nulls := by simp
  values := by simp [PhpMap.pairsInOrder]
  exact := fun _ _ => ⟨rfl, rfl⟩

theorem MapFetched.null (fetched : MapFetched zendHash keyType valueType meanings map thrown)
    {key value : CassValue} (null : key = .null ∨ value = .null) (more : List Thrown)
    (error : Thrown) :
    MapFetched zendHash keyType valueType (meanings ++ [(key, value)]) map
      (thrown ++ (more ++ [error])) where
  keyTypeEq := fetched.keyTypeEq
  valueTypeEq := fetched.valueTypeEq
  built := fetched.built
  nulls := by simp
  values := by
    intro pair member
    obtain ⟨origin, known, slot, some_, settles, _⟩ := fetched.values pair member
    exact ⟨origin, List.mem_append_left _ known, slot, some_, settles, by simp⟩
  exact := by
    intro safe
    have last := safe (key, value) (List.mem_append_right _ (List.mem_singleton_self _))
    exact absurd null (not_or.mpr ⟨last.1, last.2.1⟩)

theorem MapFetched.set (fetched : MapFetched zendHash keyType valueType meanings map thrown)
    {key value : Zval} {meaning : CassValue} {more : List Thrown} {next : PhpMap}
    (keyNonnull : key.isNull = false) (valueNonnull : meaning ≠ .null)
    (settles : Settles zendHash meaning value more)
    (nextKeyType : next.keyType = map.keyType) (nextValueType : next.valueType = map.valueType)
    (built : WellBuilt zendHash next.keyType next.entries)
    (set : (∃ entry ∈ map.pairsInOrder,
          entry.1.meaning.slot zendHash = key.meaning.slot zendHash) ∧
        next.pairsInOrder = map.pairsInOrder.map (fun entry =>
          if entry.1.meaning.slot zendHash = key.meaning.slot zendHash then (entry.1, value)
          else entry) ∨
      (∀ entry ∈ map.pairsInOrder,
          entry.1.meaning.slot zendHash ≠ key.meaning.slot zendHash) ∧
        next.pairsInOrder = map.pairsInOrder ++ [(key, value)]) :
    MapFetched zendHash keyType valueType (meanings ++ [(key.meaning, meaning)]) next
      (thrown ++ more) := by
  have keyNotNull : key.meaning ≠ .null := by
    rw [ne_eq, Zval.meaning_eq_null_iff, keyNonnull]
    exact Bool.false_ne_true
  have last : (key.meaning, meaning) ∈ meanings ++ [(key.meaning, meaning)] :=
    List.mem_append_right _ (List.mem_singleton_self _)
  have old (pair : Zval × Zval) (member : pair ∈ map.pairsInOrder) :
      ∃ origin ∈ meanings ++ [(key.meaning, meaning)],
        origin.1.slot zendHash = pair.1.meaning.slot zendHash ∧
          ∃ some_, Settles zendHash origin.2 pair.2 some_ ∧ (thrown ++ more = [] → some_ = []) := by
    obtain ⟨origin, known, slot, some_, settles, none_⟩ := fetched.values pair member
    exact ⟨origin, List.mem_append_left _ known, slot, some_, settles,
      fun empty => none_ (List.append_eq_nil_iff.mp empty).1⟩
  refine ⟨nextKeyType.trans fetched.keyTypeEq, nextValueType.trans fetched.valueTypeEq, built,
    ?_, ?_, ?_⟩
  · intro empty entry member
    rcases List.mem_append.mp member with known | isLast
    · exact fetched.nulls (List.append_eq_nil_iff.mp empty).1 entry known
    · rw [List.mem_singleton.mp isLast]
      exact ⟨keyNotNull, valueNonnull⟩
  · intro pair member
    rcases set with ⟨_, replaced⟩ | ⟨_, added⟩
    · rw [replaced, List.mem_map] at member
      obtain ⟨before, inMap, rfl⟩ := member
      split
      · rename_i slot
        exact ⟨_, last, slot.symm, more, settles,
          fun empty => (List.append_eq_nil_iff.mp empty).2⟩
      · exact old before inMap
    · rw [added, List.mem_append, List.mem_singleton] at member
      rcases member with inMap | rfl
      · exact old pair inMap
      · exact ⟨_, last, rfl, more, settles, fun empty => (List.append_eq_nil_iff.mp empty).2⟩
  · intro safe apart
    have safeLast := (safe _ last).2.2
    obtain ⟨rfl, same⟩ := settles.exact safeLast
    obtain ⟨rfl, before⟩ := fetched.exact
      (fun entry member => safe entry (List.mem_append_left _ member))
      fun first firstIn second secondIn =>
        apart first (List.mem_append_left _ firstIn) second (List.mem_append_left _ secondIn)
    refine ⟨rfl, ?_⟩
    have known (pair : Zval × Zval) (member : pair ∈ map.pairsInOrder) :
        (pair.1.meaning, pair.2.meaning) ∈ meanings := by
      rw [← List.mem_eraseDups, ← before]
      exact List.mem_map_of_mem member
    have equal (pair : Zval × Zval) (member : pair ∈ map.pairsInOrder)
        (slot : pair.1.meaning.slot zendHash = key.meaning.slot zendHash) :
        (pair.1.meaning, pair.2.meaning) = (key.meaning, meaning) :=
      apart _ (List.mem_append_left _ (known pair member)) _ last slot
    rcases set with ⟨⟨pair, member, slot⟩, replaced⟩ | ⟨others, added⟩
    · have present : (key.meaning, meaning) ∈ meanings := by
        rw [← equal pair member slot]
        exact known pair member
      rw [eraseDups_append_of_mem present, ← before, replaced, List.map_map]
      refine List.map_congr_left fun other inMap => ?_
      rw [Function.comp_apply]
      split
      · rename_i otherSlot
        rw [equal other inMap otherSlot, same]
        exact congrArg (·, meaning) (Prod.mk.inj (equal other inMap otherSlot)).1
      · rfl
    · have missing : (key.meaning, meaning) ∉ meanings := by
        intro member
        rw [← List.mem_eraseDups, ← before, List.mem_map] at member
        obtain ⟨other, inMap, equal⟩ := member
        exact others other inMap (by rw [(Prod.mk.inj equal).1])
      rw [eraseDups_append_of_notMem missing, added, List.map_append, before, List.map_singleton,
        same]

/-- A map that has been gone through. A lossy value is not set right by another entry. -/
theorem MapFetched.settles
    (fetched : MapFetched zendHash keyType valueType meanings map thrown) :
    Settles zendHash (.map meanings.eraseDups) map.toZval thrown := by
  rw [Settles, PhpMap.toZval, Zval.meaning, Zval.entryMeanings_eq_map, CassValue.map.injEq]
  constructor
  · rintro ⟨rfl, same⟩
    have apart : ∀ first ∈ meanings, ∀ second ∈ meanings,
        first.1.slot zendHash = second.1.slot zendHash → first = second := by
      intro first firstIn second secondIn slot
      rw [← List.mem_eraseDups, ← same, List.mem_map] at firstIn secondIn
      obtain ⟨first, firstIn, rfl⟩ := firstIn
      obtain ⟨second, secondIn, rfl⟩ := secondIn
      rw [PhpMap.pairsInOrder, List.mem_map] at firstIn secondIn
      obtain ⟨one, oneIn, rfl⟩ := firstIn
      obtain ⟨other, otherIn, rfl⟩ := secondIn
      have equal := fetched.built.eq_of_slot (List.mem_map_of_mem oneIn)
        (List.mem_map_of_mem otherIn) slot
      have nodup : (map.entries.elements.map fun element => element.address).Nodup := by
        have addresses := fetched.built.consistent.nodup
        rwa [UtHash.handles, List.map_map] at addresses
      rw [List.inj_on_of_nodup_map nodup oneIn otherIn (congrArg UtHandle.address equal)]
    intro lossy
    cases lossy with
    | @mapNull _ entry member null =>
        have notNull := fetched.nulls rfl entry (List.mem_eraseDups.mp member)
        exact null.elim notNull.1 notNull.2
    | mapMerged firstIn secondIn differ slot =>
        exact differ (apart _ (List.mem_eraseDups.mp firstIn) _ (List.mem_eraseDups.mp secondIn)
          slot)
    | @mapValue _ entry member lossy =>
        have known := List.mem_eraseDups.mp member
        rw [← same, List.mem_map] at member
        obtain ⟨pair, inMap, rfl⟩ := member
        obtain ⟨origin, originIn, slot, some_, settles, none_⟩ := fetched.values pair inMap
        obtain rfl := none_ rfl
        rw [apart origin originIn _ known slot] at settles
        exact settles.mp ⟨rfl, rfl⟩ lossy
  · intro safe
    apply fetched.exact
    · intro entry member
      have inErased := List.mem_eraseDups.mpr member
      exact ⟨fun null => safe (.mapNull inErased (Or.inl null)),
        fun null => safe (.mapNull inErased (Or.inr null)),
        fun lossy => safe (.mapValue inErased lossy)⟩
    · intro first firstIn second secondIn slot
      by_contra differ
      exact safe (.mapMerged (List.mem_eraseDups.mpr firstIn) (List.mem_eraseDups.mpr secondIn)
        differ slot)

end

section

variable {Key : Type}

inductive FieldsFetched (zendHash : List UInt8 → BitVec 32) :
    List (Key × CassValue) → List (Key × Zval) → List Thrown → Prop
  | nil : FieldsFetched zendHash [] [] []
  | unset (key : Key) {meanings : List (Key × CassValue)} {outs : List (Key × Zval)}
      {thrown : List Thrown} (rest : FieldsFetched zendHash meanings outs thrown) :
      FieldsFetched zendHash ((key, .null) :: meanings) outs thrown
  | set (key : Key) {meaning : CassValue} {out : Zval} {first : List Thrown}
      {meanings : List (Key × CassValue)} {outs : List (Key × Zval)} {thrown : List Thrown}
      (settles : Settles zendHash meaning out first)
      (rest : FieldsFetched zendHash meanings outs thrown) :
      FieldsFetched zendHash ((key, meaning) :: meanings) ((key, out) :: outs) (first ++ thrown)

theorem FieldsFetched.unset_all (meanings : List (Key × CassValue))
    (null : ∀ field ∈ meanings, field.2 = .null) : FieldsFetched zendHash meanings [] [] := by
  induction meanings with
  | nil => exact .nil
  | cons field meanings ih =>
      obtain ⟨key, meaning⟩ := field
      rw [List.forall_mem_cons] at null
      obtain ⟨rfl, rest⟩ := null
      exact .unset key (ih rest)

variable [DecidableEq Key] {meanings : List (Key × CassValue)} {outs : List (Key × Zval)}
  {thrown : List Thrown}

/-- A field is read as null if no field of its name is set, and else as one of these. -/
theorem FieldsFetched.lookup (fetched : FieldsFetched zendHash meanings outs thrown) (key : Key) :
    (fieldMeaning outs key = .null ∧ ∀ field ∈ meanings, field.1 = key → field.2 = .null) ∨
      ∃ field ∈ meanings, field.1 = key ∧ ∃ out some_, fieldMeaning outs key = out.meaning ∧
        Settles zendHash field.2 out some_ ∧ (thrown = [] → some_ = []) := by
  induction fetched with
  | nil => exact Or.inl ⟨fieldMeaning_of_notMem List.not_mem_nil, by simp⟩
  | unset first rest ih =>
      rcases ih with ⟨null, all⟩ | ⟨field, member, rest⟩
      · refine Or.inl ⟨null, ?_⟩
        rw [List.forall_mem_cons]
        exact ⟨fun _ => rfl, all⟩
      · exact Or.inr ⟨field, List.mem_cons_of_mem _ member, rest⟩
  | @set first meaning out some_ meanings outs thrown settles rest ih =>
      rw [fieldMeaning_cons]
      by_cases same : first = key
      · rw [if_pos same]
        exact Or.inr ⟨_, List.mem_cons_self, same, out, some_, rfl, settles,
          fun empty => (List.append_eq_nil_iff.mp empty).1⟩
      · rw [if_neg same]
        rcases ih with ⟨null, all⟩ | ⟨field, member, known, other, more, read, settles, none_⟩
        · refine Or.inl ⟨null, ?_⟩
          rw [List.forall_mem_cons]
          exact ⟨fun equal => absurd equal same, all⟩
        · exact Or.inr ⟨field, List.mem_cons_of_mem _ member, known, other, more, read, settles,
            fun empty => none_ (List.append_eq_nil_iff.mp empty).2⟩

omit [DecidableEq Key] in
theorem FieldsFetched.thrown_eq_nil (fetched : FieldsFetched zendHash meanings outs thrown)
    (safe : ∀ field ∈ meanings, ¬ Lossy zendHash field.2) : thrown = [] := by
  induction fetched with
  | nil => rfl
  | unset _ _ ih => exact ih (List.forall_mem_cons.mp safe).2
  | set _ settles _ ih =>
      obtain ⟨first, rest⟩ := List.forall_mem_cons.mp safe
      rw [(settles.exact first).1, ih rest]
      rfl

theorem FieldsFetched.settle (fetched : FieldsFetched zendHash meanings outs thrown) :
    (thrown = [] ∧ ∀ field ∈ meanings, fieldMeaning outs field.1 = field.2) ↔
      (∀ field ∈ meanings, ¬ Lossy zendHash field.2) ∧
        ∀ first ∈ meanings, ∀ second ∈ meanings, first.1 = second.1 → first = second := by
  constructor
  · rintro ⟨rfl, read⟩
    have same : ∀ first ∈ meanings, ∀ second ∈ meanings, first.1 = second.1 → first = second := by
      intro first firstIn second secondIn keys
      refine Prod.ext keys ?_
      rw [← read first firstIn, ← read second secondIn, keys]
    refine ⟨?_, same⟩
    intro field member lossy
    rcases fetched.lookup field.1 with ⟨_, null⟩ | ⟨other, known, keys, out, some_, out_, settles, none_⟩
    · rw [null field member rfl] at lossy
      exact not_lossy_null lossy
    · obtain rfl := same other known field member keys
      obtain rfl := none_ rfl
      exact settles.mp ⟨rfl, out_.symm.trans (read other known)⟩ lossy
  · rintro ⟨safe, same⟩
    refine ⟨fetched.thrown_eq_nil safe, ?_⟩
    intro field member
    rcases fetched.lookup field.1 with ⟨read, null⟩ | ⟨other, known, keys, out, some_, read, settles, _⟩
    · rw [read, null field member rfl]
    · obtain rfl := same other known field member keys
      rw [read, (settles.exact (safe other known)).2]

end

theorem keys_fieldMeanings (types : List CassType) (index : Nat) (items : List CassItem) :
    (fieldMeanings gmp types index items).map Prod.fst = List.range' index types.length := by
  induction types generalizing index items with
  | nil => cases items <;> rfl
  | cons type types ih =>
      cases items with
      | nil =>
          rw [fieldMeanings, List.map_map]
          · exact List.zipIdx_map_snd index (type :: types)
          · exact List.cons_ne_nil _ _
      | cons item items =>
          rw [fieldMeanings, List.map_cons, ih]
          rfl

theorem keys_nameMeanings (types : List (List UInt8 × CassType))
    (fields : List (List UInt8 × CassItem)) :
    (nameMeanings gmp types fields).map Prod.fst = types.map Prod.fst := by
  induction types generalizing fields with
  | nil => cases fields <;> rfl
  | cons type types ih =>
      cases fields with
      | nil =>
          rw [nameMeanings, List.map_map]
          · rfl
          · exact List.cons_ne_nil _ _
      | cons field fields =>
          rw [nameMeanings, List.map_cons, ih]
          rfl

theorem settles_tuple {types : List CassType} {items : List CassItem} {outs : List (Nat × Zval)}
    {thrown : List Thrown}
    (fetched : FieldsFetched zendHash (fieldMeanings gmp types 0 items) outs thrown) :
    Settles zendHash (.tuple ((fieldMeanings gmp types 0 items).map Prod.snd))
      (.tuple types outs) thrown := by
  have keys := @keys_fieldMeanings gmp types 0 items
  have nodup : ((fieldMeanings gmp types 0 items).map Prod.fst).Nodup := by
    rw [keys]
    exact List.nodup_range'
  have meaning : (Zval.tuple types outs).meaning = .tuple
      ((fieldMeanings gmp types 0 items).map fun field => fieldMeaning outs field.1) := by
    rw [Zval.meaning, Zval.indexedMeanings_eq_map, List.range_eq_range', ← keys, List.map_map]
    rfl
  rw [Settles, meaning, CassValue.tuple.injEq, List.map_inj_left, fetched.settle]
  constructor
  · rintro ⟨safe, _⟩ lossy
    cases lossy with
    | tupleField member lossy =>
        obtain ⟨field, known, rfl⟩ := List.mem_map.mp member
        exact safe field known lossy
  · intro safe
    exact ⟨fun field member lossy => safe (.tupleField (List.mem_map_of_mem member) lossy),
      fun first firstIn second secondIn => List.inj_on_of_nodup_map nodup firstIn secondIn⟩

theorem settles_userType {types : List (List UInt8 × CassType)}
    {fields : List (List UInt8 × CassItem)} {outs : List (List UInt8 × Zval)}
    {thrown : List Thrown}
    (fetched : FieldsFetched zendHash (nameMeanings gmp types fields) outs thrown) :
    Settles zendHash (.userType (nameMeanings gmp types fields))
      (.userTypeValue types outs) thrown := by
  have keys := @keys_nameMeanings gmp types fields
  have meaning : (Zval.userTypeValue types outs).meaning = .userType
      ((nameMeanings gmp types fields).map fun field => (field.1, fieldMeaning outs field.1)) := by
    have names : (types.map fun field => (field.1, fieldMeaning outs field.1)) =
        (types.map Prod.fst).map fun name => (name, fieldMeaning outs name) := by
      rw [List.map_map]
      rfl
    rw [Zval.meaning, Zval.namedMeanings_eq_map]
    change CassValue.userType (types.map fun field => (field.1, fieldMeaning outs field.1)) = _
    rw [names, ← keys, List.map_map]
    rfl
  have same : ((nameMeanings gmp types fields).map
        fun field => (field.1, fieldMeaning outs field.1)) = nameMeanings gmp types fields ↔
      ∀ field ∈ nameMeanings gmp types fields, fieldMeaning outs field.1 = field.2 := by
    have all := @List.map_inj_left _ _ (nameMeanings gmp types fields)
      (fun field => (field.1, fieldMeaning outs field.1)) id
    rw [List.map_id] at all
    exact all.trans (forall₂_congr fun field _ => by simp [Prod.ext_iff])
  rw [Settles, meaning, CassValue.userType.injEq, same, fetched.settle]
  constructor
  · rintro ⟨safe, equal⟩ lossy
    cases lossy with
    | userTypeField member lossy => exact safe _ member lossy
    | userTypeMerged firstIn secondIn differ names =>
        exact differ (equal _ firstIn _ secondIn names)
  · intro safe
    refine ⟨fun field member lossy => safe (.userTypeField member lossy), ?_⟩
    intro first firstIn second secondIn names
    by_contra differ
    exact safe (.userTypeMerged firstIn secondIn differ names)

theorem driverSetAdd_meets {valueType : CassType} {meanings : List CassValue} {set : PhpSet}
    {thrown some_ : List Thrown} {item : CassItem} {out : Zval}
    (fetched : SetFetched zendHash valueType meanings set thrown)
    (settles : Settles zendHash (itemMeaning gmp valueType item) out some_)
    (decoded : decodeValue gmp zendHash valueType item = some out) :
    (driverSetAdd zendHash set out).Meets (elementHazard valueType item) fun next more =>
      SetFetched zendHash valueType (meanings ++ [itemMeaning gmp valueType item]) next
        (thrown ++ (some_ ++ more)) := by
  have isNull := isNull_of_decodeValue decoded
  cases null : item.givesNull valueType with
  | true =>
      have meaning := @itemMeaning_of_givesNull gmp _ _ null
      rw [meaning] at settles ⊢
      obtain ⟨rfl, outMeaning⟩ := settles.exact not_lossy_null
      rw [Zval.meaning_eq_null_iff, Zval.isNull_iff] at outMeaning
      obtain rfl := outMeaning
      obtain ⟨error, refused⟩ := @setAdd_null zendHash set
      rw [driverSetAdd, refused, elementHazard, null]
      exact ⟨rfl, fetched.null error⟩
  | false =>
      rw [null] at isNull
      have fits : Fits set.valueType out := by
        rw [fetched.type]
        exact ⟨isNull, decodeValue_accepted decoded⟩
      have hash := @valueHash_isSome_iff zendHash _ _ fits
      rw [fetched.type] at hash
      rw [elementHazard, null, Bool.false_or]
      cases hashed : valueType.hasHash with
      | false =>
          rw [hashed] at hash
          have unhashed : valueHash zendHash out = none := by
            rw [← Option.not_isSome_iff_eq_none, hash]
            exact Bool.false_ne_true
          rw [driverSetAdd, setAdd_unhashed fits unhashed]
          rfl
      | true =>
          obtain ⟨scalarType, value, rfl, rfl, _⟩ : ∃ scalarType value,
              valueType = .scalar scalarType ∧ out = .scalar value ∧
                scalarType.isInstance value := by
            have scalar := fits.scalar (hash.mpr hashed)
            rwa [fetched.type] at scalar
          obtain ⟨rfl, outMeaning⟩ := settles.exact (not_lossy_itemMeaning_scalar scalarType item)
          obtain ⟨next, taken, type, built, added⟩ :=
            setAdd_hashed fetched.built fits (hash.mpr hashed)
          rw [driverSetAdd, taken, ← outMeaning]
          refine ⟨rfl, ?_⟩
          simp only [Option.toList_none, List.append_nil]
          exact fetched.add isNull type built added

theorem driverMapSet_meets {keyType valueType : CassType}
    {meanings : List (CassValue × CassValue)} {map : PhpMap} {thrown keyThrown some_ : List Thrown}
    {keyItem item : CassItem} {key value : Zval}
    (fetched : MapFetched zendHash keyType valueType meanings map thrown)
    (keySettles : Settles zendHash (itemMeaning gmp keyType keyItem) key keyThrown)
    (keyDecoded : decodeValue gmp zendHash keyType keyItem = some key)
    (settles : Settles zendHash (itemMeaning gmp valueType item) value some_)
    (decoded : decodeValue gmp zendHash valueType item = some value) :
    (driverMapSet zendHash map key value).Meets (entryHazard keyType valueType keyItem item)
      fun next more => MapFetched zendHash keyType valueType
        (meanings ++ [(itemMeaning gmp keyType keyItem, itemMeaning gmp valueType item)]) next
        (thrown ++ (keyThrown ++ (some_ ++ more))) := by
  have keyNull := isNull_of_decodeValue keyDecoded
  have isNull := isNull_of_decodeValue decoded
  rw [entryHazard, ← keyNull, ← isNull]
  by_cases null : key.isNull = true ∨ value.isNull = true
  · obtain ⟨error, refused⟩ := @mapSet_null zendHash map _ _ null
    have hazard : (key.isNull || value.isNull || keyType.hasHash) = true := by
      rcases null with null | null <;> simp [null]
    rw [driverMapSet, refused, hazard]
    refine ⟨rfl, ?_⟩
    have meaning : itemMeaning gmp keyType keyItem = .null ∨
        itemMeaning gmp valueType item = .null := by
      rw [keyNull, isNull] at null
      exact null.imp itemMeaning_of_givesNull itemMeaning_of_givesNull
    have refusal := fetched.null meaning (keyThrown ++ some_) error
    rwa [List.append_assoc] at refusal
  · rw [not_or, Bool.not_eq_true, Bool.not_eq_true] at null
    obtain ⟨keyNonnull, nonnull⟩ := null
    have fits : Fits map.keyType key := by
      rw [fetched.keyTypeEq]
      exact ⟨keyNonnull, decodeValue_accepted keyDecoded⟩
    have valueFits : Fits map.valueType value := by
      rw [fetched.valueTypeEq]
      exact ⟨nonnull, decodeValue_accepted decoded⟩
    have hash := @valueHash_isSome_iff zendHash _ _ fits
    rw [fetched.keyTypeEq] at hash
    rw [keyNonnull, nonnull, Bool.false_or, Bool.false_or]
    cases hashed : keyType.hasHash with
    | false =>
        rw [hashed] at hash
        have unhashed : valueHash zendHash key = none := by
          rw [← Option.not_isSome_iff_eq_none, hash]
          exact Bool.false_ne_true
        rw [driverMapSet, mapSet_unhashed fits valueFits unhashed]
        rfl
    | true =>
        obtain ⟨scalarType, scalar, rfl, rfl, _⟩ : ∃ scalarType scalar,
            keyType = .scalar scalarType ∧ key = .scalar scalar ∧
              scalarType.isInstance scalar := by
          have scalar := fits.scalar (hash.mpr hashed)
          rwa [fetched.keyTypeEq] at scalar
        obtain ⟨rfl, keyMeaning⟩ :=
          keySettles.exact (not_lossy_itemMeaning_scalar scalarType keyItem)
        obtain ⟨next, taken, nextKeyType, nextValueType, built, set⟩ :=
          mapSet_hashed fetched.built fits valueFits (hash.mpr hashed)
        have valueNonnull : itemMeaning gmp valueType item ≠ .null := by
          intro meaning
          rw [meaning] at settles
          have outNull := (settles.exact not_lossy_null).2
          rw [Zval.meaning_eq_null_iff, nonnull] at outNull
          cases outNull
        rw [driverMapSet, taken, ← keyMeaning]
        refine ⟨rfl, ?_⟩
        simp only [Option.toList_none, List.append_nil, List.nil_append]
        exact fetched.set keyNonnull valueNonnull settles nextKeyType nextValueType built set

mutual

theorem driverValue_meets (type : CassType) (item : CassItem) :
    (driverValue gmp zendHash type item).Meets (hazards gmp type item)
      (Settles zendHash (itemMeaning gmp type item)) := by
  cases item with
  | null =>
      cases type <;> exact ⟨rfl, settles_of_safe not_lossy_null rfl⟩
  | scalar content =>
      cases type with
      | custom _ => exact ⟨rfl, settles_of_safe not_lossy_null rfl⟩
      | scalar type =>
          refine (driverScalar_meets type content).map ?_
          rintro value thrown ⟨rfl, read⟩
          rw [itemMeaning, read]
          exact settles_of_safe (not_lossy_scalar _) rfl
      | _ => exact rfl
  | collection items =>
      cases type with
      | custom _ => exact ⟨rfl, settles_of_safe not_lossy_null rfl⟩
      | list valueType =>
          exact (driverValues_meets valueType items).map fun values thrown settle =>
            settles_list valueType settle
      | map keyType valueType =>
          exact (driverEntries_meets items (.start keyType valueType)).map
            fun map thrown fetched => fetched.settles
      | set valueType =>
          exact (driverElements_meets items (.start valueType)).map
            fun set thrown fetched => fetched.settles
      | _ => exact rfl
  | tuple items =>
      cases type with
      | custom _ => exact ⟨rfl, settles_of_safe not_lossy_null rfl⟩
      | tuple types =>
          exact (driverFields_meets types 0 items).map fun values thrown fetched =>
            settles_tuple fetched
      | _ => exact rfl
  | userType fields =>
      cases type with
      | custom _ => exact ⟨rfl, settles_of_safe not_lossy_null rfl⟩
      | userType types =>
          exact (driverFieldsByName_meets types fields).map fun values thrown fetched =>
            settles_userType fetched
      | _ => exact rfl

theorem driverValues_meets (valueType : CassType) (items : List CassItem) :
    (driverValues gmp zendHash valueType items).Meets (valueHazards gmp valueType items)
      fun outs thrown => (thrown = [] ∧ outs.map Zval.meaning = itemMeanings gmp valueType items) ↔
        ∀ meaning ∈ itemMeanings gmp valueType items, ¬ Lossy zendHash meaning := by
  cases items with
  | nil => exact ⟨rfl, by simp [itemMeanings]⟩
  | cons item items =>
      refine (driverValue_meets valueType item).bind fun out first settles => ?_
      refine (driverValues_meets valueType items).map fun outs thrown settle => ?_
      rw [itemMeanings, List.forall_mem_cons, ← settle, ← settles.eq, List.append_eq_nil_iff,
        List.map_cons, List.cons.injEq]
      exact and_and_and_comm

theorem driverElements_meets {valueType : CassType} {meanings : List CassValue} {set : PhpSet}
    {thrown : List Thrown} (items : List CassItem)
    (fetched : SetFetched zendHash valueType meanings set thrown) :
    (driverElements gmp zendHash valueType set items).Meets (elementHazards gmp valueType items)
      fun last more => SetFetched zendHash valueType
        (meanings ++ itemMeanings gmp valueType items) last (thrown ++ more) := by
  cases items with
  | nil =>
      refine ⟨rfl, ?_⟩
      simp only [itemMeanings, List.append_nil]
      exact fetched
  | cons item items =>
      refine (meets_decoded (driverValue_meets valueType item)).bind ?_
      rintro out first ⟨settles, decoded⟩
      refine (driverSetAdd_meets fetched settles decoded).bind fun next second added => ?_
      refine (driverElements_meets items added).mono fun last more fetched => ?_
      rw [List.append_assoc] at fetched
      simpa only [itemMeanings, List.singleton_append, List.append_assoc] using fetched

theorem driverEntries_meets {keyType valueType : CassType}
    {meanings : List (CassValue × CassValue)} {map : PhpMap} {thrown : List Thrown}
    (items : List CassItem)
    (fetched : MapFetched zendHash keyType valueType meanings map thrown) :
    (driverEntries gmp zendHash keyType valueType map items).Meets
      (entryHazards gmp keyType valueType items)
      fun last more => MapFetched zendHash keyType valueType
        (meanings ++ pairMeanings gmp keyType valueType items) last (thrown ++ more) := by
  match items with
  | [] =>
      refine ⟨rfl, ?_⟩
      simp only [pairMeanings, List.append_nil]
      exact fetched
  | [_] => exact rfl
  | keyItem :: item :: items =>
      refine (meets_decoded (driverValue_meets keyType keyItem)).bind ?_
      rintro key first ⟨keySettles, keyDecoded⟩
      refine (meets_decoded (driverValue_meets valueType item)).bind ?_
      rintro value second ⟨settles, decoded⟩
      refine (driverMapSet_meets fetched keySettles keyDecoded settles decoded).bind
        fun next third set => ?_
      refine (driverEntries_meets items set).mono fun last more fetched => ?_
      simpa only [pairMeanings, List.singleton_append, List.append_assoc] using fetched

theorem driverFields_meets (types : List CassType) (index : Nat) (items : List CassItem) :
    (driverFields gmp zendHash types index items).Meets (fieldHazards gmp types items)
      (FieldsFetched zendHash (fieldMeanings gmp types index items)) := by
  cases items with
  | nil =>
      rw [driverFields, fieldHazards]
      refine ⟨rfl, .unset_all _ ?_⟩
      cases types with
      | nil => simp [fieldMeanings]
      | cons type types =>
          rw [fieldMeanings, List.forall_mem_map]
          · exact fun _ _ => rfl
          · exact List.cons_ne_nil _ _
  | cons item items =>
      cases item with
      | null =>
          rw [driverFields, fieldHazards]
          have rest := driverFields_meets types.tail (index + 1) items
          cases types with
          | nil => simpa [fieldMeanings] using rest
          | cons type types =>
              refine rest.mono fun outs thrown fetched => ?_
              rw [fieldMeanings, itemMeaning_of_givesNull (by cases type <;> rfl)]
              exact .unset index fetched
      | _ =>
          cases types with
          | nil =>
              rw [driverFields, fieldHazards]
              all_goals first | exact rfl | simp
          | cons type types =>
              rw [driverFields, fieldHazards]
              · refine (driverValue_meets type _).bind fun out first settles => ?_
                refine (driverFields_meets types (index + 1) items).map
                  fun outs thrown fetched => ?_
                exact .set index settles fetched
              all_goals simp

theorem driverFieldsByName_meets (types : List (List UInt8 × CassType))
    (fields : List (List UInt8 × CassItem)) :
    (driverFieldsByName gmp zendHash types fields).Meets (nameHazards gmp types fields)
      (FieldsFetched zendHash (nameMeanings gmp types fields)) := by
  match fields with
  | [] =>
      rw [driverFieldsByName, nameHazards]
      refine ⟨rfl, .unset_all _ ?_⟩
      cases types with
      | nil => simp [nameMeanings]
      | cons type types =>
          rw [nameMeanings, List.forall_mem_map]
          · exact fun _ _ => rfl
          · exact List.cons_ne_nil _ _
  | (_, item) :: fields =>
      cases item with
      | null =>
          rw [driverFieldsByName, nameHazards]
          have rest := driverFieldsByName_meets types.tail fields
          cases types with
          | nil => simpa [nameMeanings] using rest
          | cons type types =>
              refine rest.mono fun outs thrown fetched => ?_
              rw [nameMeanings, itemMeaning_of_givesNull (by cases type.2 <;> rfl)]
              exact .unset type.1 fetched
      | _ =>
          cases types with
          | nil =>
              rw [driverFieldsByName, nameHazards]
              all_goals first | exact rfl | simp
          | cons type types =>
              rw [driverFieldsByName, nameHazards]
              · refine (driverValue_meets type.2 _).bind fun out first settles => ?_
                refine (driverFieldsByName_meets types fields).map
                  fun outs thrown fetched => ?_
                exact .set type.1 settles fetched
              all_goals simp

end

/-- `FAILURE`, or `SUCCESS` without an exception and with all that was delivered. -/
def KeepsEverything (meaning : CassValue) : Data.Outcome Thrown Zval → Prop
  | .undefined => False
  | .failure _ => True
  | .success value thrown => thrown = [] ∧ value.meaning = meaning

/-- The decoding ends with a getter that refuses, or it meets nothing undefined and the
value has no null and no two values of one slot where they are lost. -/
theorem driverValue_keeps_iff (gmp : Gmp) (zendHash : List UInt8 → BitVec 32) (type : CassType)
    (item : CassItem) :
    KeepsEverything (itemMeaning gmp type item) (driverValue gmp zendHash type item) ↔
      (hazards gmp type item).head? = some .failure ∨
        hazards gmp type item = [] ∧ ¬ Lossy zendHash (itemMeaning gmp type item) := by
  have meets := @driverValue_meets gmp zendHash type item
  cases outcome : driverValue gmp zendHash type item with
  | undefined =>
      rw [outcome] at meets
      have first : (hazards gmp type item).head? = some .undefined := meets
      refine iff_of_false id ?_
      rintro (failure | ⟨none_, _⟩)
      · cases first.symm.trans failure
      · rw [none_] at first
        cases first
  | failure thrown =>
      rw [outcome] at meets
      exact iff_of_true trivial (Or.inl meets)
  | success value thrown =>
      rw [outcome] at meets
      obtain ⟨none_, settles⟩ := meets
      refine settles.trans ?_
      rw [none_]
      constructor
      · exact fun safe => Or.inr ⟨rfl, safe⟩
      · rintro (failure | ⟨_, safe⟩)
        · cases failure
        · exact safe

/-- A null of a set leaves an exception behind a success, of a varint without bytes the
first one is read, and the second field of a tuple has no type. -/
theorem delivered_values_are_lost :
    (driverValue Gmp.reference zendInlineHash (.set (.scalar .int))
          (.collection [.null, .scalar (.int32 1)]) =
        .success (.set (.scalar .int) [.scalar (.long 1)])
          [.invalid "Invalid value: null is not supported inside sets"] ∧
      ¬ KeepsEverything (itemMeaning Gmp.reference (.set (.scalar .int))
          (.collection [.null, .scalar (.int32 1)]))
        (driverValue Gmp.reference zendInlineHash (.set (.scalar .int))
          (.collection [.null, .scalar (.int32 1)]))) ∧
      driverValue Gmp.reference zendInlineHash (.scalar .varint) (.scalar (.bytes [])) =
        .undefined ∧
      driverValue Gmp.reference zendInlineHash (.tuple [.scalar .int])
        (.tuple [.null, .scalar (.int32 1)]) = .undefined := by
  have lost : driverValue Gmp.reference zendInlineHash (.set (.scalar .int))
      (.collection [.null, .scalar (.int32 1)]) =
        .success (.set (.scalar .int) [.scalar (.long 1)])
          [.invalid "Invalid value: null is not supported inside sets"] := by rfl
  refine ⟨⟨lost, ?_⟩, rfl, rfl⟩
  rw [lost]
  rintro ⟨none_, _⟩
  cases none_

end PhpDriver
