import PhpDriver.Util.FieldCompare
import PhpDriver.Util.Properties
import PhpDriver.Util.Slots

namespace PhpDriver

open Data

/-! `php_driver_set_compare`, and what it tells of two sets. -/

variable (zendHash : List UInt8 → BitVec 32)

/-- The loop over the values of the one set, each of which is searched in the other. -/
def setSearchAll (entries : UtHash Zval Unit) : List Zval → Option Int
  | [] => some 0
  | value :: values => do
      let entry ← hashFindZval zendHash entries value
      match entry with
      | none => some 1
      | some _ => setSearchAll entries values

/-- `php_driver_set_compare` of two sets. -/
def setObjectsCompare (first second : PhpSet) : Option Int :=
  let result := typeCompare (.set first.valueType) (.set second.valueType)
  if result ≠ 0 then some result
  else if first.count ≠ second.count then some (if first.count < second.count then -1 else 1)
  else setSearchAll zendHash second.entries first.values

variable {zendHash}

def PhpSet.slots (zendHash : List UInt8 → BitVec 32) (set : PhpSet) :
    List (CassValue ⊕ Nat) :=
  set.values.map fun value => value.meaning.slot zendHash

theorem PhpSet.slots_eq (set : PhpSet) :
    set.slots zendHash = (set.values.map Zval.meaning).map (CassValue.slot zendHash) := by
  rw [PhpSet.slots, List.map_map]
  rfl

namespace SetReached

variable {valueType : CassType} {first second : PhpSet}

theorem wellBuilt (reached : SetReached zendHash valueType first) :
    WellBuilt zendHash valueType first.entries := by
  obtain ⟨type, holds⟩ := reached.holds
  rw [← type]
  exact holds.entries

theorem distinctKeys (reached : SetReached zendHash valueType first) :
    DistinctKeys zendHash valueType first.values :=
  reached.wellBuilt.distinctKeys

theorem nodup_slots (reached : SetReached zendHash valueType first) :
    (first.slots zendHash).Nodup := by
  have keys := reached.distinctKeys
  refine List.pairwise_map.mpr (keys.apart.imp_of_mem ?_)
  intro value other member otherMember apart
  exact (apart_iff_slot (keys.fits value member) (keys.fits other otherMember)
    (keys.hashed value member) (keys.hashed other otherMember)).mp apart

theorem find_isNone_iff (reached : SetReached zendHash valueType first) {value : Zval}
    (fits : Fits valueType value) (hashed : (valueHash zendHash value).isSome) :
    hashFindZval zendHash first.entries value = some none ↔
      value.meaning.slot zendHash ∉ first.slots zendHash := by
  have keys : first.slots zendHash =
      first.entries.handles.map fun handle => handle.key.meaning.slot zendHash := by
    rw [PhpSet.slots, PhpSet.values, UtHash.handles, List.map_map, List.map_map]
    rfl
  rw [(reached.wellBuilt.find fits hashed).2, reached.wellBuilt.slot_ne fits hashed, keys]
  simp only [List.mem_map, not_exists, not_and]

theorem setFinds_iff (reached : SetReached zendHash valueType first) {value : Zval}
    (fits : Fits valueType value) (hashed : (valueHash zendHash value).isSome) :
    setFinds zendHash first.values value = true ↔
      value.meaning.slot zendHash ∈ first.slots zendHash := by
  rw [← not_iff_not, Bool.not_eq_true, ← reached.find_isNone_iff fits hashed]
  exact (reached.wellBuilt.find_iff_setFinds fits hashed).symm

theorem searchAll (reached : SetReached zendHash valueType second) {values : List Zval}
    (fits : ∀ value ∈ values, Fits valueType value)
    (hashed : ∀ value ∈ values, (valueHash zendHash value).isSome) :
    setSearchAll zendHash second.entries values =
      some (if values.all (setFinds zendHash second.values) then 0 else 1) := by
  induction values with
  | nil => rfl
  | cons value values ih =>
      rw [List.forall_mem_cons] at fits hashed
      obtain ⟨found, search⟩ :=
        Option.isSome_iff_exists.mp (reached.wellBuilt.find fits.1 hashed.1).1
      have finds := reached.wellBuilt.find_iff_setFinds fits.1 hashed.1
      rw [search, Option.some.injEq] at finds
      rw [setSearchAll, search, Option.bind_eq_bind, Option.bind_some, ih fits.2 hashed.2,
        List.all_cons]
      cases found with
      | none =>
          have misses : setFinds zendHash second.values value = false := finds.mp rfl
          rw [misses, Bool.false_and, if_neg Bool.false_ne_true]
      | some found =>
          have inside : setFinds zendHash second.values value = true := by
            rw [← Bool.not_eq_false]
            exact mt finds.mpr (Option.some_ne_none found)
          rw [inside, Bool.true_and]

theorem toNat_count {set : PhpSet} (few : set.values.length < 2 ^ 32) :
    set.count.toNat = set.values.length := by
  have length : set.entries.elements.length = set.values.length := (List.length_map _).symm
  rw [PhpSet.count, UtHash.count, BitVec.toNat_ofNat, length]
  exact Nat.mod_eq_of_lt few

theorem compare_eq (firstReached : SetReached zendHash valueType first)
    (secondReached : SetReached zendHash valueType second)
    (firstFew : first.values.length < 2 ^ 32) (secondFew : second.values.length < 2 ^ 32) :
    setObjectsCompare zendHash first second =
      dataCompare zendHash first.toZval second.toZval := by
  have keys := firstReached.distinctKeys
  have same : first.count = second.count ↔ first.values.length = second.values.length := by
    rw [← BitVec.toNat_inj, toNat_count firstFew, toNat_count secondFew]
  have less : first.count < second.count ↔ first.values.length < second.values.length := by
    rw [BitVec.lt_def, toNat_count firstFew, toNat_count secondFew]
  rw [PhpSet.toZval, PhpSet.toZval, dataCompare, setObjectsCompare, setCompare, compareNat,
    secondReached.searchAll keys.fits keys.hashed]
  grind [thenCompare]

theorem setCompare_eq_zero_iff (firstReached : SetReached zendHash valueType first)
    (secondReached : SetReached zendHash valueType second) :
    setCompare zendHash first.valueType second.valueType first.values second.values = 0 ↔
      (first.slots zendHash).Perm (second.slots zendHash) := by
  have keys := firstReached.distinctKeys
  have found : first.values.all (setFinds zendHash second.values) = true ↔
      first.slots zendHash ⊆ second.slots zendHash := by
    rw [List.all_eq_true]
    refine Iff.trans ?_ List.forall_mem_map.symm
    exact forall₂_congr fun value member =>
      secondReached.setFinds_iff (keys.fits value member) (keys.hashed value member)
  have lengths : first.values.length = second.values.length ↔
      (first.slots zendHash).length = (second.slots zendHash).length := by
    rw [PhpSet.slots, PhpSet.slots, List.length_map, List.length_map]
  rw [firstReached.holds.1, secondReached.holds.1, setCompare, thenCompare_eq_zero_iff,
    thenCompare_eq_zero_iff, compareNat_eq_zero_iff, lengths,
    iff_true_intro ((typeCompare_eq_zero_iff _ _).mpr rfl), true_and]
  constructor
  · rintro ⟨lengths, all⟩
    have subset := found.mp (by grind)
    exact (List.subperm_of_subset firstReached.nodup_slots subset).perm_of_length_le lengths.ge
  · intro perm
    exact ⟨perm.length_eq, if_pos (found.mpr perm.subset)⟩

theorem same_iff_perm (reached : SetReached zendHash valueType second) :
    first.toZval.Same second.toZval ↔
      (first.values.map Zval.meaning).Perm (second.values.map Zval.meaning) := by
  have keys := reached.distinctKeys
  rw [first.same_iff]
  cases values : second.values with
  | nil => exact @sameValues_iff_perm .int _ _ (by simp [AllInstances])
  | cons value rest =>
      rw [values] at keys
      obtain ⟨scalarType, rfl⟩ := keys.scalarType List.mem_cons_self
      exact sameValues_iff_perm keys.instances

end SetReached

def SlotsAgree (zendHash : List UInt8 → BitVec 32) (first second : PhpSet) : Prop :=
  ∀ value ∈ first.values, ∀ other ∈ second.values,
    value.meaning.slot zendHash = other.meaning.slot zendHash → value.meaning = other.meaning

/-- Of sets with the same slots. Each slot has one value of each. -/
theorem SetReached.perm_iff_agree {valueType : CassType} {first second : PhpSet}
    (reached : SetReached zendHash valueType second)
    (perm : (first.slots zendHash).Perm (second.slots zendHash)) :
    (first.values.map Zval.meaning).Perm (second.values.map Zval.meaning) ↔
      SlotsAgree zendHash first second := by
  have secondSlots := reached.nodup_slots
  constructor
  · intro meanings value member other otherMember slot
    obtain ⟨partner, partnerMember, same⟩ :=
      List.mem_map.mp (meanings.subset (List.mem_map_of_mem member))
    rw [← same] at slot ⊢
    rw [List.inj_on_of_nodup_map secondSlots partnerMember otherMember slot]
  · intro agree
    have nodup : (first.values.map Zval.meaning).Nodup := by
      have firstSlots := perm.nodup_iff.mpr secondSlots
      rw [PhpSet.slots_eq] at firstSlots
      exact firstSlots.of_map
    have subset : first.values.map Zval.meaning ⊆ second.values.map Zval.meaning := by
      refine List.forall_mem_map.mpr fun value member => ?_
      obtain ⟨other, otherMember, slot⟩ :=
        List.mem_map.mp (perm.subset (List.mem_map_of_mem member))
      rw [agree value member other otherMember slot.symm]
      exact List.mem_map_of_mem otherMember
    have lengths := perm.length_eq
    rw [PhpSet.slots, PhpSet.slots, List.length_map, List.length_map] at lengths
    refine (List.subperm_of_subset nodup subset).perm_of_length_le ?_
    rw [List.length_map, List.length_map, lengths]

theorem SetReached.tells_iff {valueType : CassType} {first second : PhpSet}
    (firstReached : SetReached zendHash valueType first)
    (secondReached : SetReached zendHash valueType second) :
    (setCompare zendHash first.valueType second.valueType first.values second.values = 0 ↔
        first.toZval.Same second.toZval) ↔
      ((first.slots zendHash).Perm (second.slots zendHash) →
        SlotsAgree zendHash first second) := by
  rw [firstReached.setCompare_eq_zero_iff secondReached, secondReached.same_iff_perm]
  constructor
  · intro tells perm
    exact (secondReached.perm_iff_agree perm).mp (tells.mp perm)
  · intro agree
    refine ⟨fun perm => (secondReached.perm_iff_agree perm).mpr (agree perm), fun meanings => ?_⟩
    rw [PhpSet.slots_eq, PhpSet.slots_eq]
    exact meanings.map _

/-- In a field, and in a search by `==`, such sets are compared rightly. -/
theorem SetReached.comparedRight {valueType : CassType} {first second : PhpSet}
    (firstReached : SetReached zendHash valueType first)
    (secondReached : SetReached zendHash valueType second)
    (agree : (first.slots zendHash).Perm (second.slots zendHash) →
      SlotsAgree zendHash first second) :
    ComparedRight zendHash first.toZval second.toZval ∧
      ∀ zend, Tells zendHash zend first.toZval second.toZval := by
  have right : ComparedRight zendHash first.toZval second.toZval :=
    .set ((firstReached.tells_iff secondReached).mpr agree)
  exact ⟨right, fun zend => right.tells rfl rfl⟩

end PhpDriver
