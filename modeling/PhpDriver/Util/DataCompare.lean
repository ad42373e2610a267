import PhpDriver.Util.Entries
import PhpDriver.Util.SameValue
import PhpDriver.Util.ScalarOrder

namespace PhpDriver

open Data

/-! `php_driver_value_compare` on PHP 8 of the values a container may show, which need not
be hashed: of the containers sets, tuples and user type values have their own `compare`. -/

variable (zendHash : List UInt8 → BitVec 32)

def sameBucket (first second : Zval) : Bool :=
  match valueHash zendHash first, valueHash zendHash second with
  | some firstHash, some secondHash =>
      utBucket firstHash utInitialLog2 == utBucket secondHash utInitialLog2
  | _, _ => false

/-- `HASH_FIND_ZVAL` in a set of these values. A table has more buckets than at first only
when its values are told apart in whatever bucket they are. -/
def setFinds (values : List Zval) (searched : Zval) : Bool :=
  values.any fun value =>
    sameBucket zendHash value searched && valueCompare value searched == some 0

def setCompare (valueType otherType : CassType) (values others : List Zval) : Int :=
  thenCompare (typeCompare (.set valueType) (.set otherType))
    (thenCompare (compareNat values.length others.length)
      (if values.all (setFinds zendHash others) then 0 else 1))

mutual

/-- Of two values at different addresses. -/
def dataCompare : Zval → Zval → Option Int
  | .set valueType values, .set otherType others =>
      some (setCompare zendHash valueType otherType values others)
  | .tuple types values, .tuple otherTypes others =>
      let result := thenCompare (typeCompare (.tuple types) (.tuple otherTypes))
        (compareNat values.length others.length)
      if result ≠ 0 then some result else compareIndexed values others
  | .userTypeValue types values, .userTypeValue otherTypes others =>
      let result := thenCompare (typeCompare (.userType types) (.userType otherTypes))
        (compareNat values.length others.length)
      if result ≠ 0 then some result else compareNamed values others
  | first, second => valueCompare first second

/-- The fields in the order of their hash tables, up to the first that differ. -/
def compareIndexed : List (Nat × Zval) → List (Nat × Zval) → Option Int
  | (_, value) :: values, (_, other) :: others =>
      (dataCompare value other).bind fun result =>
        if result ≠ 0 then some result else compareIndexed values others
  | _, _ => some 0

def compareNamed : List (List UInt8 × Zval) → List (List UInt8 × Zval) → Option Int
  | (_, value) :: values, (_, other) :: others =>
      (dataCompare value other).bind fun result =>
        if result ≠ 0 then some result else compareNamed values others
  | _, _ => some 0

end

variable {zendHash}

@[simp] theorem dataCompare_scalar (first second : Scalar) :
    dataCompare zendHash (.scalar first) (.scalar second) =
      valueCompare (.scalar first) (.scalar second) := by
  simp [dataCompare]

@[simp] theorem dataCompare_collections (valueType otherType : CassType)
    (values others : List Zval) :
    dataCompare zendHash (.collection valueType values) (.collection otherType others) =
      some 0 := by
  simp [dataCompare, valueCompare, objectCompare, Zval.zType]

@[simp] theorem dataCompare_maps (keyType valueType otherKeyType otherType : CassType)
    (entries others : List (Zval × Zval)) :
    dataCompare zendHash (.map keyType valueType entries) (.map otherKeyType otherType others) =
      some 0 := by
  simp [dataCompare, valueCompare, objectCompare, Zval.zType]

/-! Scalars of one type are ordered by what they are, or not told apart at all. -/

namespace Scalar

def orderCompare (first second : Scalar) : Int :=
  thenCompare (compareNat first.zType second.zType) (first.compareAlike second)

theorem orderCompare_of_zType {first second : Scalar} (types : first.zType = second.zType) :
    first.orderCompare second = first.compareAlike second := by
  rw [orderCompare, types, compareNat_self, thenCompare_zero_left]

def Ordered (value : Scalar) : Prop :=
  (Zval.scalar value).inheritsCompare = false

theorem valueCompare_of_alike {first second : Scalar} (alike : first.Alike second)
    (ordered : second.Ordered) :
    valueCompare (.scalar first) (.scalar second) = some (first.compareAlike second) := by
  cases alike.sameForm with
  | bool value => cases value <;> rfl
  | varint | decimal | float | blob | date | inet | uuid | duration => cases ordered
  | _ => simp [valueCompare, objectCompare, Zval.zType, Scalar.compareAlike]

theorem compareAlike_eq_zero_iff {first second : Scalar} (alike : first.Alike second) :
    first.compareAlike second = 0 ↔ first.normal = second.normal := by
  cases alike.sameForm with
  | bool value => simp [compareAlike]
  | double first second =>
      rw [compareAlike, doubleCompare_eq_zero_iff, doubleToBits_eq, doubleToBits_eq]
      simp [normal]
  | float first second =>
      rw [compareAlike, floatCompare_eq_zero_iff]
      simp [normal, floatToBits, Ieee.canonical]
  | string first second =>
      rw [compareAlike, zendBinaryStrcmp_eq_zero_iff]
      simp [normal]
  | varint first second =>
      rw [compareAlike, compareInt_eq_zero_iff]
      simp [normal]
  | decimal first second =>
      obtain ⟨value, scale⟩ := first
      obtain ⟨otherValue, otherScale⟩ := second
      rw [compareAlike, decimalCompare_eq, thenCompare_eq_zero_iff,
        compareInt_eq_zero_iff, compareInt_eq_zero_iff, BitVec.toInt_inj]
      simp [normal, and_comm]
  | blob first second | inet first second =>
      rw [compareAlike, blobCompare_eq_zero_iff]
      simp [normal]
  | date first second =>
      rw [compareAlike, compareNat_eq_zero_iff, BitVec.toNat_inj]
      simp [normal]
  | uuid firstTime firstClock secondTime secondClock
  | timeuuid firstTime firstClock secondTime secondClock =>
      rw [compareAlike, uuidCompare_eq, thenCompare_eq_zero_iff,
        compareNat_eq_zero_iff, compareNat_eq_zero_iff, BitVec.toNat_inj, BitVec.toNat_inj]
      simp [normal]
  | duration firstMonths firstDays firstNanos secondMonths secondDays secondNanos =>
      rw [compareAlike, durationCompare, thenCompare_eq_zero_iff, thenCompare_eq_zero_iff,
        compareInt_eq_zero_iff, compareInt_eq_zero_iff, compareInt_eq_zero_iff,
        BitVec.toInt_inj, BitVec.toInt_inj, BitVec.toInt_inj]
      simp [normal]
  | _ =>
      rw [compareAlike, compareInt_eq_zero_iff, BitVec.toInt_inj]
      simp [normal]

end Scalar

namespace ScalarType

variable {type : ScalarType} {first second : Scalar}

theorem ordered_congr (firstHolds : type.isInstance first) (secondHolds : type.isInstance second) :
    first.Ordered ↔ second.Ordered := by
  cases type.instance_of firstHolds <;> cases ScalarType.instance_of secondHolds <;> exact Iff.rfl

theorem valueClass_congr (firstHolds : type.isInstance first)
    (secondHolds : type.isInstance second) : first.valueClass = second.valueClass := by
  cases type.instance_of firstHolds <;> cases ScalarType.instance_of secondHolds <;> rfl

theorem valueCompare_of_ordered (firstHolds : type.isInstance first)
    (secondHolds : type.isInstance second) (ordered : second.Ordered) :
    valueCompare (.scalar first) (.scalar second) = some (first.orderCompare second) := by
  by_cases types : first.zType = second.zType
  · rw [Scalar.orderCompare_of_zType types]
    exact Scalar.valueCompare_of_alike
      ⟨types, valueClass_congr firstHolds secondHolds⟩ ordered
  · have differ : compareNat first.zType second.zType ≠ 0 := mt compareNat_eq_zero_iff.mp types
    rw [Scalar.orderCompare, thenCompare_of_ne_zero differ, compareNat]
    unfold Scalar.zType at types ⊢
    unfold valueCompare
    rw [if_pos types]
    grind

theorem valueCompare_of_unordered (firstHolds : type.isInstance first)
    (secondHolds : type.isInstance second) (unordered : ¬ second.Ordered) :
    valueCompare (.scalar first) (.scalar second) = some 0 := by
  cases type.instance_of firstHolds <;> cases ScalarType.instance_of secondHolds <;>
    first | rfl | exact absurd rfl unordered

theorem orderCompare_lawful (type : ScalarType) :
    LawfulOn (fun value : Scalar => type.isInstance value) Scalar.orderCompare := by
  have types : LawfulOn (fun value : Scalar => type.isInstance value)
      fun first second => compareNat first.zType second.zType :=
    (compareNat_lawful.comap Scalar.zType).mono fun _ _ => trivial
  apply types.thenCompare
  intro value holds
  apply (Scalar.compareAlike_lawful value).mono
  intro other known
  exact ⟨compareNat_eq_zero_iff.mp known.2, valueClass_congr holds known.1⟩

theorem orderCompare_eq_zero_iff (firstHolds : type.isInstance first)
    (secondHolds : type.isInstance second) :
    first.orderCompare second = 0 ↔
      (Zval.scalar first).meaning = (Zval.scalar second).meaning := by
  rw [Scalar.orderCompare, thenCompare_eq_zero_iff, compareNat_eq_zero_iff, Zval.meaning,
    Zval.meaning, CassValue.scalar.injEq]
  constructor
  · intro known
    exact (Scalar.compareAlike_eq_zero_iff
      ⟨known.1, valueClass_congr firstHolds secondHolds⟩).mp known.2
  · intro same
    have types : first.zType = second.zType := by
      have normal := zType_normal first
      rw [same, zType_normal second] at normal
      exact normal.symm
    exact ⟨types, (Scalar.compareAlike_eq_zero_iff
      ⟨types, valueClass_congr firstHolds secondHolds⟩).mpr same⟩

end ScalarType

/-! What a search in a set of the given values finds is what `HASH_FIND_ZVAL` finds. -/

theorem sameBucket_congr {first second : Zval} (hashed : (valueHash zendHash second).isSome)
    (same : first.meaning = second.meaning) : sameBucket zendHash first second = true := by
  obtain ⟨hashv, known⟩ := Option.isSome_iff_exists.mp hashed
  rw [sameBucket, valueHash_congr same, known]
  simp

theorem Fits.apart_iff {type : CassType} {first second : Zval} (firstFits : Fits type first)
    (secondFits : Fits type second) (firstHashed : (valueHash zendHash first).isSome)
    (secondHashed : (valueHash zendHash second).isSome) :
    Apart zendHash first second ↔
      ¬ (sameBucket zendHash first second = true ∧ valueCompare first second = some 0) := by
  obtain ⟨firstHash, firstKnown⟩ := Option.isSome_iff_exists.mp firstHashed
  obtain ⟨secondHash, secondKnown⟩ := Option.isSome_iff_exists.mp secondHashed
  have kind := firstFits.sameKind secondFits firstHashed secondHashed
  have bucketed (same : first.meaning = second.meaning) := sameBucket_congr secondHashed same
  cases inherits : second.inheritsCompare with
  | true =>
      rw [kind.2 inherits, and_iff_left rfl]
      constructor
      · intro apart bucket
        apply apart.buckets inherits firstHash secondHash firstKnown secondKnown
        simpa [sameBucket, firstKnown, secondKnown] using bucket
      · intro bucket
        refine ⟨fun same => bucket (bucketed same), fun _ => ?_⟩
        intro hashv otherHash known otherKnown equal
        apply bucket
        simpa [sameBucket, known, otherKnown] using equal
  | false =>
      obtain ⟨order, compared, zero⟩ := @valueCompare_cases zendHash first second firstHashed
        secondHashed (by simp [inherits])
      rw [compared, Option.some.injEq, zero]
      constructor
      · intro apart found
        exact apart.differ found.2
      · intro missed
        exact ⟨fun same => missed ⟨bucketed same, same⟩, by simp [inherits]⟩

theorem WellBuilt.find_iff_setFinds {type : CassType} {head : UtHash Zval Value}
    (wellBuilt : WellBuilt zendHash type head) {key : Zval} (fits : Fits type key)
    (hashed : (valueHash zendHash key).isSome) :
    hashFindZval zendHash head key = some none ↔
      setFinds zendHash (head.elements.map (·.key)) key = false := by
  have keys : head.elements.map (·.key) = head.handles.map UtHandle.key := by
    rw [UtHash.handles, List.map_map]
    rfl
  rw [(wellBuilt.find fits hashed).2, setFinds, keys, List.any_eq_false]
  constructor
  · intro apart value member
    obtain ⟨handle, inHandles, rfl⟩ := List.mem_map.mp member
    have found := (Fits.apart_iff (wellBuilt.fits handle inHandles) fits
      (wellBuilt.hashed inHandles) hashed).mp (apart handle inHandles)
    simpa using found
  · intro missed handle member
    apply (Fits.apart_iff (wellBuilt.fits handle member) fits (wellBuilt.hashed member)
      hashed).mpr
    simpa using missed handle.key (List.mem_map_of_mem member)

end PhpDriver
