import PhpDriver.Data.UtKinds
import PhpDriver.Util.Entries

namespace PhpDriver

open Data

/-! What the installed handlers can tell of a value. Of the classes that have a hash and
inherit their comparison it is the class. -/

def Zval.told : Zval → Zval
  | .scalar (.varint _) => .scalar (.varint 0)
  | .scalar (.float _) => .scalar (.float 0)
  | .scalar (.decimal _) => .scalar (.decimal { value := 0, scale := 0 })
  | .scalar (.duration _ _ _) => .scalar (.duration 0 0 0)
  | value => value

def Zval.kind (value : Zval) : CassValue :=
  value.told.meaning

variable {zendHash : List UInt8 → BitVec 32} {first second : Zval}

theorem zType_told (value : Zval) : value.told.zType = value.zType := by
  cases value with
  | scalar value => cases value <;> rfl
  | _ => rfl

theorem zType_of_inherits {value : Zval} (inherits : value.inheritsCompare) :
    value.zType = 8 := by
  cases value with
  | scalar value => cases value <;> first | rfl | cases inherits
  | _ => first | rfl | cases inherits

theorem kind_of_own {value : Zval} (own : value.inheritsCompare = false) :
    value.kind = value.meaning := by
  cases value with
  | scalar value => cases value <;> first | rfl | cases own
  | _ => rfl

theorem kind_congr (same : first.meaning = second.meaning) : first.kind = second.kind := by
  cases inherits : second.inheritsCompare with
  | false =>
      have firstOwn := Zval.inheritsCompare_congr same
      rw [inherits] at firstOwn
      rw [kind_of_own firstOwn, kind_of_own inherits, same]
  | true =>
      cases second with
      | scalar second =>
          cases first with
          | scalar first =>
              have normal := same
              simp only [Zval.meaning, CassValue.scalar.injEq] at normal
              cases second <;> try cases inherits
              all_goals cases first <;> first | rfl | exact same | cases normal
          | _ => simp [Zval.meaning] at same
      | collection _ _ | map _ _ _ =>
          cases first with
          | scalar first => simp [Zval.meaning] at same
          | _ => exact same
      | _ => cases inherits

inductive HashedObject : Zval → Prop
  | varint (value : Int) : HashedObject (.scalar (.varint value))
  | float (bits : BitVec 32) : HashedObject (.scalar (.float bits))
  | decimal (value : Decimal) : HashedObject (.scalar (.decimal value))
  | duration (months days : BitVec 32) (nanos : BitVec 64) :
      HashedObject (.scalar (.duration months days nanos))

theorem hashedObject_of_isSome {value : Zval} (hashed : (valueHash zendHash value).isSome)
    (object : value.zType = 8) : HashedObject value := by
  cases value with
  | null => cases object
  | scalar value =>
      cases value with
      | varint value => exact .varint value
      | float bits => exact .float bits
      | decimal value => exact .decimal value
      | duration months days nanos => exact .duration months days nanos
      | bool value => cases value <;> cases object
      | long _ | double _ | string _ => cases object
      | _ => simp [valueHash, hashValue] at hashed
  | _ => simp [valueHash, hashValue] at hashed

theorem HashedObject.compare_iff (firstHashed : HashedObject first)
    (secondHashed : HashedObject second) :
    ∃ order, objectCompare first second = some order ∧
      (order = 0 ↔ first.kind = second.kind) := by
  cases firstHashed <;> cases secondHashed <;>
    first
      | exact ⟨0, rfl, fun _ => rfl, fun _ => rfl⟩
      | exact ⟨1, rfl, by simp [Zval.kind, Zval.told, Zval.meaning, Scalar.normal]⟩

theorem valueCompare_iff_kind (firstHashed : (valueHash zendHash first).isSome)
    (secondHashed : (valueHash zendHash second).isSome) :
    ∃ order, valueCompare first second = some order ∧
      (order = 0 ↔ first.kind = second.kind) := by
  by_cases types : first.zType = second.zType
  · cases object : decide (second.zType = 8) with
    | true =>
        rw [decide_eq_true_eq] at object
        rw [object] at types
        rw [valueCompare_of_object types object]
        exact (hashedObject_of_isSome firstHashed types).compare_iff
          (hashedObject_of_isSome secondHashed object)
    | false =>
        rw [decide_eq_false_iff_not] at object
        have secondOwn : second.inheritsCompare = false :=
          Bool.eq_false_iff.mpr fun inherits => object (zType_of_inherits inherits)
        have firstOwn : first.inheritsCompare = false :=
          Bool.eq_false_iff.mpr fun inherits => object (types ▸ zType_of_inherits inherits)
        rw [kind_of_own firstOwn, kind_of_own secondOwn]
        exact valueCompare_cases firstHashed secondHashed fun inherits => by
          rw [secondOwn] at inherits
          cases inherits
  · refine ⟨_, by unfold valueCompare; rw [if_pos types], ?_⟩
    have differ : first.kind ≠ second.kind := by
      intro same
      apply types
      rw [← zType_told first, ← zType_told second]
      exact zType_congr same
    grind

/-! The tables of sets and maps, whatever type these have at the time. -/

abbrev Sifted (zendHash : List UInt8 → BitVec 32) (head : UtHash Zval Value) : Prop :=
  UtHash.Separated (valueHash zendHash) Zval.kind head

/-- The key has a hash, and what the comparison finds equal in its bucket is the same value. -/
structure TellsApart (zendHash : List UInt8 → BitVec 32) (head : UtHash Zval Value)
    (key : Zval) : Prop where
  hashed : (valueHash zendHash key).isSome
  apart : ∀ handle ∈ head.handles, ∀ hashv, valueHash zendHash key = some hashv →
    utBucket handle.hashv head.table.log2NumBuckets =
      utBucket hashv head.table.log2NumBuckets →
    valueCompare handle.key key = some 0 → handle.key.meaning = key.meaning

inductive Searched (zendHash : List UInt8 → BitVec 32) (head : UtHash Zval Value)
    (key : Zval) : Prop
  | missing (found : hashFindZval zendHash head key = some none)
      (tells : TellsApart zendHash head key)
      (new : ∀ handle ∈ head.handles, handle.key.meaning ≠ key.meaning)
  | same (handle : UtHandle Zval) (member : handle ∈ head.handles)
      (found : hashFindZval zendHash head key = some (some handle))
      (tells : TellsApart zendHash head key) (equal : handle.key.meaning = key.meaning)
  | mistaken (handle : UtHandle Zval) (member : handle ∈ head.handles)
      (found : hashFindZval zendHash head key = some (some handle))
      (blind : ¬ TellsApart zendHash head key)
      (new : ∀ other ∈ head.handles, other.key.meaning ≠ key.meaning)

namespace Sifted

variable {head : UtHash Zval Value}

theorem compares (sifted : Sifted zendHash head) {key : Zval}
    (hashed : (valueHash zendHash key).isSome) {handle : UtHandle Zval}
    (member : handle ∈ head.handles) :
    ∃ order, valueCompare handle.key key = some order ∧
      (order = 0 ↔ handle.key.kind = key.kind) := by
  apply @valueCompare_iff_kind zendHash
  · rw [sifted.consistent.hashed handle member]
    rfl
  · exact hashed

theorem hashv_eq (sifted : Sifted zendHash head) {key : Zval} {hashv : BitVec 32}
    (hashed : valueHash zendHash key = some hashv) {handle : UtHandle Zval}
    (member : handle ∈ head.handles) (equal : handle.key.meaning = key.meaning) :
    handle.hashv = hashv := by
  have hashes := @valueHash_congr zendHash _ _ equal
  rw [sifted.consistent.hashed handle member, hashed] at hashes
  exact Option.some.inj hashes

theorem searched (sifted : Sifted zendHash head) {key : Zval}
    (hashed : (valueHash zendHash key).isSome) : Searched zendHash head key := by
  obtain ⟨hashv, keyHash⟩ := Option.isSome_iff_exists.mp hashed
  have decides : UtHash.DecidesKind valueCompare Zval.kind head key hashv :=
    fun handle member _ => sifted.compares hashed member
  have bucket (handle : UtHandle Zval) (member : handle ∈ head.handles)
      (equal : handle.key.meaning = key.meaning) :
      utBucket handle.hashv head.table.log2NumBuckets =
        utBucket hashv head.table.log2NumBuckets := by
    rw [sifted.hashv_eq keyHash member equal]
  have kindOf (handle : UtHandle Zval) (member : handle ∈ head.handles)
      (compared : valueCompare handle.key key = some 0) : handle.key.kind = key.kind := by
    obtain ⟨order, compares, zero⟩ := sifted.compares hashed member
    rw [compared, Option.some.injEq] at compares
    exact zero.mp compares.symm
  cases UtHash.handle_cases_find sifted.consistent keyHash decides with
  | inl missed =>
      obtain ⟨found, others⟩ := missed
      refine .missing found ⟨hashed, ?_⟩ ?_
      · intro handle member other otherHash inBucket compared
        rw [keyHash, Option.some.injEq] at otherHash
        rw [← otherHash] at inBucket
        exact absurd (kindOf handle member compared) (others handle member inBucket)
      · intro handle member equal
        exact others handle member (bucket handle member equal) (kind_congr equal)
  | inr there =>
      obtain ⟨handle, member, found, inBucket, sameKind⟩ := there
      have only (other : UtHandle Zval) (otherIn : other ∈ head.handles)
          (otherBucket : utBucket other.hashv head.table.log2NumBuckets =
            utBucket hashv head.table.log2NumBuckets)
          (otherKind : other.key.kind = key.kind) : other = handle :=
        sifted.eq_of_kind otherIn member (otherBucket.trans inBucket.symm)
          (otherKind.trans sameKind.symm)
      by_cases equal : handle.key.meaning = key.meaning
      · refine .same handle member found ⟨hashed, ?_⟩ equal
        intro other otherIn otherHashv otherHash otherBucket compared
        rw [keyHash, Option.some.injEq] at otherHash
        rw [← otherHash] at otherBucket
        rw [only other otherIn otherBucket (kindOf other otherIn compared)]
        exact equal
      · refine .mistaken handle member found ?_ ?_
        · intro tells
          obtain ⟨order, compared, zero⟩ := sifted.compares hashed member
          rw [zero.mpr sameKind] at compared
          exact equal (tells.apart handle member hashv keyHash inBucket compared)
        · intro other otherIn otherEqual
          have same := only other otherIn (bucket other otherIn otherEqual)
            (kind_congr otherEqual)
          rw [same] at otherEqual
          exact equal otherEqual

theorem represents (sifted : Sifted zendHash head) :
    UtHash.Represents Zval.meaning (valueHash zendHash) head
      (head.elements.map fun element => (element.key.meaning, element.value)) where
  consistent := sifted.consistent
  entries := rfl
  nodup := by
    have keys : OrderedMap.keys
        (head.elements.map fun element => (element.key.meaning, element.value)) =
          head.handles.map fun handle => handle.key.meaning := by
      rw [OrderedMap.keys, UtHash.handles, List.map_map, List.map_map]
      rfl
    rw [keys]
    apply List.pairwise_map.mpr
    apply sifted.apart.imp_of_mem
    intro first second firstIn secondIn apart equal
    apply apart _ (kind_congr equal)
    rw [sifted.hashv_eq (sifted.consistent.hashed second secondIn) firstIn equal]

theorem insert (sifted : Sifted zendHash head) {key : Zval} {value : Value}
    {after : UtHash Zval Value} (missing : hashFindZval zendHash head key = some none)
    (added : hashAddZval zendHash head key value = some after) : Sifted zendHash after := by
  have hashed := hashed_of_hashAddZval added
  obtain ⟨hashv, keyHash⟩ := Option.isSome_iff_exists.mp hashed
  have decides : UtHash.DecidesKind valueCompare Zval.kind head key hashv :=
    fun handle member _ => sifted.compares hashed member
  cases UtHash.handle_cases_find sifted.consistent keyHash decides with
  | inl missed => exact sifted.add keyHash missed.2 added
  | inr there =>
      obtain ⟨handle, _, found, _⟩ := there
      rw [hashFindZval, found] at missing
      cases missing

end Sifted

end PhpDriver
