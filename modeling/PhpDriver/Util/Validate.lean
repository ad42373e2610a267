import PhpDriver.Values

namespace PhpDriver

open Data

/-! `php_driver_validate_object`. -/

/-- A refused value either throws, naming what was expected, or, when a container has
another type, is refused in silence. -/
inductive Validation where
  | accepted
  | expecting (expected : String)
  | mismatched
deriving DecidableEq

/-- The exceptions of the containers, by their text or by what an argument had to be. -/
inductive Thrown where
  | invalid (text : String)
  /-- `Invalid name '%s'`. -/
  | invalidName (name : List UInt8)
  | expecting (expected : String)
deriving DecidableEq

/-- The `int` a container operation returns, with the exception it leaves behind. -/
structure Answer where
  result : Bool
  thrown : Option Thrown := none
deriving DecidableEq

def Validation.refusal : Validation → Answer
  | .expecting expected => { result := false, thrown := some (.expecting expected) }
  | _ => { result := false }

def ScalarType.expected : ScalarType → String
  | .varchar | .text | .ascii => "a string"
  | .double => "a float"
  | .int => "an int"
  | .boolean => "a boolean"
  | .float => "an instance of Cassandra\\Float"
  | .counter | .bigint => "an instance of Cassandra\\Bigint"
  | .smallint => "an instance of Cassandra\\Smallint"
  | .tinyint => "an instance of Cassandra\\Tinyint"
  | .blob => "an instance of Cassandra\\Blob"
  | .decimal => "an instance of Cassandra\\Decimal"
  | .duration => "an instance of Cassandra\\Duration"
  | .timestamp => "an instance of Cassandra\\Timestamp"
  | .date => "an instance of Cassandra\\Date"
  | .time => "an instance of Cassandra\\Time"
  | .uuid => "an instance of Cassandra\\Uuid"
  | .varint => "an instance of Cassandra\\Varint"
  | .timeuuid => "an instance of Cassandra\\Timeuuid"
  | .inet => "an instance of Cassandra\\Inet"

def ScalarType.isInstance : ScalarType → Scalar → Bool
  | .varchar, .string _ | .text, .string _ | .ascii, .string _ => true
  | .double, .double _ => true
  | .int, .long _ => true
  | .boolean, .bool _ => true
  | .float, .float _ => true
  | .counter, .bigint _ | .bigint, .bigint _ => true
  | .smallint, .smallint _ => true
  | .tinyint, .tinyint _ => true
  | .blob, .blob _ => true
  | .decimal, .decimal _ => true
  | .duration, .duration _ _ _ => true
  | .timestamp, .timestamp _ => true
  | .date, .date _ => true
  | .time, .time _ => true
  | .uuid, .uuid _ _ => true
  | .varint, .varint _ => true
  | .timeuuid, .timeuuid _ _ => true
  | .inet, .inet _ => true
  | _, _ => false

/-- The scalars of each type, for case splits. -/
inductive ScalarType.Instance : ScalarType → Scalar → Prop
  | varchar (bytes : List UInt8) : Instance .varchar (.string bytes)
  | text (bytes : List UInt8) : Instance .text (.string bytes)
  | ascii (bytes : List UInt8) : Instance .ascii (.string bytes)
  | double (bits) : Instance .double (.double bits)
  | int (value) : Instance .int (.long value)
  | boolean (value) : Instance .boolean (.bool value)
  | float (bits) : Instance .float (.float bits)
  | counter (value) : Instance .counter (.bigint value)
  | bigint (value) : Instance .bigint (.bigint value)
  | smallint (value) : Instance .smallint (.smallint value)
  | tinyint (value) : Instance .tinyint (.tinyint value)
  | blob (bytes) : Instance .blob (.blob bytes)
  | decimal (value) : Instance .decimal (.decimal value)
  | duration (months days nanos) : Instance .duration (.duration months days nanos)
  | timestamp (value) : Instance .timestamp (.timestamp value)
  | date (value) : Instance .date (.date value)
  | time (value) : Instance .time (.time value)
  | uuid (time clock) : Instance .uuid (.uuid time clock)
  | varint (value) : Instance .varint (.varint value)
  | timeuuid (time clock) : Instance .timeuuid (.timeuuid time clock)
  | inet (bytes) : Instance .inet (.inet bytes)

theorem ScalarType.instance_of {type : ScalarType} {value : Scalar}
    (holds : type.isInstance value) : type.Instance value := by
  unfold isInstance at holds
  split at holds <;> first | constructor | cases holds

def validateType (own expected : CassType) : Validation :=
  if typeCompare own expected ≠ 0 then .mismatched else .accepted

def validateObject : Zval → CassType → Validation
  | .null, _ => .accepted
  | .scalar value, .scalar type =>
      if type.isInstance value then .accepted else .expecting type.expected
  | .collection valueType _, .list expected => validateType (.list valueType) (.list expected)
  | .set valueType _, .set expected => validateType (.set valueType) (.set expected)
  | .map keyType valueType _, .map expectedKey expectedValue =>
      validateType (.map keyType valueType) (.map expectedKey expectedValue)
  | .tuple types _, .tuple expected => validateType (.tuple types) (.tuple expected)
  | .userTypeValue types _, .userType expected =>
      validateType (.userType types) (.userType expected)
  | _, .scalar type => .expecting type.expected
  | _, .custom _ => .expecting "a simple Cassandra value"
  | _, .list _ => .expecting "an instance of Cassandra\\Collection"
  | _, .set _ => .expecting "an instance of Cassandra\\Set"
  | _, .map _ _ => .expecting "an instance of Cassandra\\Map"
  | _, .tuple _ => .expecting "an instance of Cassandra\\Tuple"
  | _, .userType _ => .expecting "an instance of Cassandra\\UserTypeValue"

def Zval.ownType : Zval → Option CassType
  | .collection valueType _ => some (.list valueType)
  | .set valueType _ => some (.set valueType)
  | .map keyType valueType _ => some (.map keyType valueType)
  | .tuple types _ => some (.tuple types)
  | .userTypeValue types _ => some (.userType types)
  | _ => none

theorem validateType_eq_accepted_iff (own expected : CassType) :
    validateType own expected = .accepted ↔ own.canonical = expected.canonical := by
  rw [← typeCompare_eq_zero_iff, validateType]
  split <;> simp_all

@[simp] theorem validateObject_null (type : CassType) :
    validateObject .null type = .accepted := rfl

theorem validateObject_scalar_iff (value : Scalar) (type : CassType) :
    validateObject (.scalar value) type = .accepted ↔
      ∃ scalarType, type = .scalar scalarType ∧ scalarType.isInstance value := by
  cases type with
  | scalar scalarType =>
      rw [validateObject]
      split <;> simp_all
  | _ =>
      refine iff_of_false (fun accepted => by cases accepted) ?_
      rintro ⟨_, scalar, _⟩
      cases scalar

theorem validateObject_container_iff {object : Zval} {own : CassType}
    (container : object.ownType = some own) (type : CassType) :
    validateObject object type = .accepted ↔ own.canonical = type.canonical := by
  cases object with
  | null | scalar _ | foreign => cases container
  | collection valueType values =>
      obtain rfl := Option.some.inj container
      cases type with
      | list expected => exact validateType_eq_accepted_iff _ _
      | _ => simp [validateObject, CassType.canonical]
  | set valueType values =>
      obtain rfl := Option.some.inj container
      cases type with
      | set expected => exact validateType_eq_accepted_iff _ _
      | _ => simp [validateObject, CassType.canonical]
  | map keyType valueType entries =>
      obtain rfl := Option.some.inj container
      cases type with
      | map expectedKey expectedValue => exact validateType_eq_accepted_iff _ _
      | _ => simp [validateObject, CassType.canonical]
  | tuple types values =>
      obtain rfl := Option.some.inj container
      cases type with
      | tuple expected => exact validateType_eq_accepted_iff _ _
      | _ => simp [validateObject, CassType.canonical]
  | userTypeValue types values =>
      obtain rfl := Option.some.inj container
      cases type with
      | userType expected => exact validateType_eq_accepted_iff _ _
      | _ => simp [validateObject, CassType.canonical]

theorem validateObject_foreign (type : CassType) : validateObject .foreign type ≠ .accepted := by
  intro accepted
  cases type <;> cases accepted

theorem isInstance_canonical (type : ScalarType) (value : Scalar) :
    type.canonical.isInstance value = type.isInstance value := by
  cases type with
  | varchar => cases value <;> rfl
  | _ => rfl

theorem validateObject_congr {object : Zval} {first second : CassType}
    (same : first.canonical = second.canonical) :
    validateObject object first = .accepted ↔ validateObject object second = .accepted := by
  cases own : object.ownType with
  | some type =>
      rw [validateObject_container_iff own, validateObject_container_iff own, same]
  | none => cases object with
    | null => simp
    | foreign => simp [validateObject_foreign]
    | scalar value =>
        rw [validateObject_scalar_iff, validateObject_scalar_iff]
        cases first with
        | scalar first =>
            cases second with
            | scalar second =>
                simp only [CassType.canonical, CassType.scalar.injEq] at same
                simp [← isInstance_canonical first, ← isInstance_canonical second, same]
            | _ => simp [CassType.canonical] at same
        | _ =>
            cases second with
            | scalar second => simp [CassType.canonical] at same
            | _ => simp
    | _ => cases own

/-! The fields of a tuple, by index, and of a user type value, by name. -/

structure FieldsTyped (typeOf : Key → Option CassType) (values : OrderedMap Key Zval) :
    Prop where
  nodup : values.keys.Nodup
  typed : ∀ field ∈ values,
    ∃ type, typeOf field.1 = some type ∧ validateObject field.2 type = .accepted

theorem FieldsTyped.empty (typeOf : Key → Option CassType) :
    FieldsTyped typeOf ([] : OrderedMap Key Zval) where
  nodup := List.nodup_nil
  typed := by simp

theorem FieldsTyped.set [DecidableEq Key] {typeOf : Key → Option CassType}
    {values : OrderedMap Key Zval} (typed : FieldsTyped typeOf values) {key : Key}
    {type : CassType} (typeEq : typeOf key = some type) {value : Zval}
    (accepted : validateObject value type = .accepted) :
    FieldsTyped typeOf (values.set key value) where
  nodup := OrderedMap.nodup_set values key value typed.nodup
  typed := by
    intro field member
    rcases OrderedMap.mem_set member with rfl | old
    · exact ⟨type, typeEq, accepted⟩
    · exact typed.typed field old

/-- The types whose values are not objects. -/
def CassType.isPlain : CassType → Bool
  | .scalar .ascii | .scalar .text | .scalar .varchar | .scalar .int | .scalar .double
  | .scalar .boolean => true
  | _ => false

end PhpDriver
