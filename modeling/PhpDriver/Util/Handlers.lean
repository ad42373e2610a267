import PhpDriver.Util.Hash

namespace PhpDriver

/-! The handler tables of the value classes. `php_driver_value_hash` and
`php_driver_value_compare` call through the table of whatever object they are given. -/

inductive ValueClass where
  | bigint | smallint | tinyint | varint | float | decimal | blob | timestamp | date | time
  | uuid | timeuuid | inet | duration | collection | set | map | tuple | userTypeValue
deriving DecidableEq

/-- `zend_object_handlers`, or `php_driver_value_handlers` with its `hash_value`. -/
inductive HandlerTable where
  | object
  | value
deriving DecidableEq

inductive HandlerSlot where
  | compare
  | compareObjects
  | hashValue
deriving DecidableEq

inductive VersionGuard where
  | always
  | below80000
  | from80000
deriving DecidableEq

def VersionGuard.holds (phpVersionId : Nat) : VersionGuard → Bool
  | .always => true
  | .below80000 => phpVersionId < 80000
  | .from80000 => 80000 ≤ phpVersionId

/-- What `php_driver_define_*` does with the slots that hash and compare. -/
structure Registration where
  table : HandlerTable
  assignments : List (VersionGuard × HandlerSlot)

namespace ValueClass

def registration : ValueClass → Registration
  | .bigint => { table := .value, assignments := [(.always, .compare), (.below80000, .hashValue)] }
  | .varint | .float | .decimal | .duration =>
      { table := .value, assignments := [(.below80000, .compareObjects), (.always, .hashValue)] }
  | .blob | .date | .uuid | .inet | .collection =>
      { table := .value,
        assignments := [(.below80000, .compareObjects), (.below80000, .hashValue)] }
  | .smallint | .tinyint | .timestamp | .time | .timeuuid | .set | .tuple | .userTypeValue =>
      { table := .object,
        assignments :=
          [(.from80000, .compare), (.below80000, .compareObjects), (.below80000, .hashValue)] }
  | .map => { table := .object, assignments := [(.below80000, .compareObjects)] }

def fills (phpVersionId : Nat) (valueClass : ValueClass) (slot : HandlerSlot) : Bool :=
  valueClass.registration.assignments.any fun assignment =>
    assignment.1.holds phpVersionId && assignment.2 == slot

end ValueClass

inductive SlotCall where
  | installed
  /-- The handler of Zend's that `memcpy` put there. -/
  | inherited
  | unset
  | outOfTable
deriving DecidableEq

namespace ValueClass

def hashCall (phpVersionId : Nat) (valueClass : ValueClass) : SlotCall :=
  match valueClass.registration.table with
  | .object => .outOfTable
  | .value => if valueClass.fills phpVersionId .hashValue then .installed else .unset

def compareCall (phpVersionId : Nat) (valueClass : ValueClass) : SlotCall :=
  if valueClass.fills phpVersionId .compare then .installed else .inherited

end ValueClass

def Scalar.valueClass : Scalar → Option ValueClass
  | .string _ | .long _ | .double _ | .bool _ => none
  | .bigint _ => some .bigint
  | .smallint _ => some .smallint
  | .tinyint _ => some .tinyint
  | .float _ => some .float
  | .varint _ => some .varint
  | .decimal _ => some .decimal
  | .blob _ => some .blob
  | .timestamp _ => some .timestamp
  | .date _ => some .date
  | .time _ => some .time
  | .uuid _ _ => some .uuid
  | .timeuuid _ _ => some .timeuuid
  | .inet _ => some .inet
  | .duration _ _ _ => some .duration

def Zval.valueClass : Zval → Option ValueClass
  | .null | .foreign => none
  | .scalar value => value.valueClass
  | .collection _ _ => some .collection
  | .set _ _ => some .set
  | .map _ _ _ => some .map
  | .tuple _ _ => some .tuple
  | .userTypeValue _ _ => some .userTypeValue

/-- Hashing and comparing a value only calls what its class installed. -/
def Zval.Handled (phpVersionId : Nat) (value : Zval) : Prop :=
  ∀ valueClass, value.valueClass = some valueClass →
    valueClass.hashCall phpVersionId = .installed ∧
      valueClass.compareCall phpVersionId = .installed

/-- `php_driver_type_validate`, which `Type::set`, `Type::map` and the constructors of sets
and maps ask. -/
def typeValidate : CassType → Bool
  | .custom _ => false
  | _ => true

section

variable {phpVersionId : Nat} (modern : 80000 ≤ phpVersionId)

include modern

theorem holds_of_modern (guard : VersionGuard) :
    guard.holds phpVersionId = (guard != .below80000) := by
  cases guard with
  | always => rfl
  | below80000 => exact decide_eq_false (Nat.not_lt_of_le modern)
  | from80000 => exact decide_eq_true modern

theorem not_both_installed (valueClass : ValueClass) :
    ¬ (valueClass.hashCall phpVersionId = .installed ∧
      valueClass.compareCall phpVersionId = .installed) := by
  cases valueClass <;>
    simp [ValueClass.hashCall, ValueClass.compareCall, ValueClass.fills,
      ValueClass.registration, holds_of_modern modern]

theorem handled_iff_valueClass (value : Zval) :
    value.Handled phpVersionId ↔ value.valueClass = none := by
  constructor
  · intro handled
    cases known : value.valueClass with
    | none => rfl
    | some valueClass =>
        exact absurd (handled valueClass known) (not_both_installed modern valueClass)
  · intro noClass valueClass known
    rw [noClass] at known
    cases known

end

/-- The values of plain types are no objects, those of all other types are. -/
theorem valueClass_eq_none_iff {type : CassType} {value : Zval}
    (accepted : validateObject value type = .accepted) (nonnull : value.isNull = false) :
    value.valueClass = none ↔ type.isPlain := by
  cases value with
  | null => cases nonnull
  | foreign => exact absurd accepted (validateObject_foreign type)
  | scalar value =>
      obtain ⟨scalarType, rfl, holds⟩ := (validateObject_scalar_iff value type).mp accepted
      cases scalarType.instance_of holds <;>
        simp [Zval.valueClass, Scalar.valueClass, CassType.isPlain]
  | _ =>
      cases type with
      | scalar scalarType => simp [validateObject] at accepted
      | _ => simp [Zval.valueClass, CassType.isPlain]

theorem admissible_handled_iff {phpVersionId : Nat} (modern : 80000 ≤ phpVersionId)
    {type : CassType} {value : Zval} (accepted : validateObject value type = .accepted)
    (nonnull : value.isNull = false) : value.Handled phpVersionId ↔ type.isPlain := by
  rw [handled_iff_valueClass modern, valueClass_eq_none_iff accepted nonnull]

theorem text_is_handled :
    (Zval.scalar (.string [0x61])).Handled 80000 ↔ (CassType.scalar .text).isPlain :=
  admissible_handled_iff (Nat.le_refl _) rfl rfl

/-- A bigint goes through a slot that is never set. -/
theorem bigint_hash_unset :
    typeValidate (.scalar .bigint) ∧
      validateObject (.scalar (.bigint 1)) (.scalar .bigint) = .accepted ∧
      ValueClass.hashCall 80000 .bigint = .unset ∧
      ¬ (Zval.scalar (.bigint 1)).Handled 80000 := by
  refine ⟨rfl, rfl, by decide, fun handled => ?_⟩
  exact absurd (handled .bigint rfl).1 (by decide)

end PhpDriver
