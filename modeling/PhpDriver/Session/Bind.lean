import PhpDriver.Util.Encode

namespace PhpDriver

/-! The binding of parameters by `DefaultSession.c`, which goes by the class of a value
and not by a type. Both ways of binding hand a string over up to its end. -/

variable (gmp : Gmp)

def bindScalar : Scalar → CassScalar
  | .string bytes => .string (cString bytes)
  | .double bits => .double bits
  | .long value => .int32 (value.setWidth 32)
  | .bool value => .bool value
  | .float bits => .float bits
  | .bigint value => .int64 value
  | .smallint value => .int16 value
  | .tinyint value => .int8 value
  | .timestamp value => .int64 value
  | .date value => .uint32 value
  | .time value => .int64 value
  | .blob bytes => .bytes bytes
  | .varint value => .bytes (exportTwosComplement gmp value)
  | .decimal value =>
      .decimal (exportTwosComplement gmp value.value) (value.scale.setWidth 32)
  | .uuid timeAndVersion clockSeqAndNode => .uuid timeAndVersion clockSeqAndNode
  | .timeuuid timeAndVersion clockSeqAndNode => .uuid timeAndVersion clockSeqAndNode
  | .inet address => .inet address
  | .duration months days nanos => .duration months days nanos

/-- What reaches the statement, if the binding succeeds. -/
def bindArgument : Zval → Option CassItem
  | .null => some .null
  | .scalar value => some (.scalar (bindScalar gmp value))
  | .set valueType values => collectionFromSet gmp valueType values
  | .map keyType valueType entries => collectionFromMap gmp keyType valueType entries
  | .collection valueType values => collectionFromCollection gmp valueType values
  | .tuple types values => tupleFromTuple gmp types values
  | .userTypeValue types values => userTypeFromUserTypeValue gmp types values
  | .foreign => none

def bindArgumentByIndex : Zval → Option CassItem :=
  bindArgument gmp

def bindArgumentByName : Zval → Option CassItem :=
  bindArgument gmp

structure HandedOver (type : ScalarType) (value : Scalar) (content : CassScalar) : Prop where
  byIndex : bindArgumentByIndex gmp (.scalar value) = some (.scalar content)
  byName : bindArgumentByName gmp (.scalar value) = some (.scalar content)
  element : collectionAppend gmp (.scalar type) (.scalar value) = some (.scalar content)
  tupleField : tupleSet gmp (.scalar type) (.scalar value) = some (.scalar content)
  userTypeField : userTypeSet gmp (.scalar type) (.scalar value) = some (.scalar content)

/-- The two switches, over the types and over the classes, differ in strings at most. -/
theorem encodeScalar_eq_bindScalar {position : Position} {type : ScalarType} {value : Scalar}
    (instance_ : type.isInstance value)
    (strings : ∀ bytes, value = .string bytes → position.string bytes = cString bytes) :
    encodeScalar gmp position type value = some (bindScalar gmp value) := by
  cases value with
  | string bytes =>
      have same := strings bytes rfl
      cases type with
      | ascii | text | varchar => simp only [encodeScalar, bindScalar, same]
      | _ => cases instance_
  | _ => cases type <;> first | rfl | cases instance_

theorem encoders_agree_iff {type : ScalarType} {value : Scalar}
    (instance_ : type.isInstance value) :
    (∃ content, HandedOver gmp type value content) ↔
      ∀ bytes, value = .string bytes → 0 ∉ bytes := by
  constructor
  · rintro ⟨content, handed⟩ bytes rfl
    have byIndex := handed.byIndex
    have element := handed.element
    simp only [bindArgumentByIndex, bindArgument, bindScalar, Option.some.injEq,
      CassItem.scalar.injEq] at byIndex
    subst byIndex
    have whole : encodeScalar gmp .element type (.string bytes) = some (.string bytes) := by
      cases type <;> first | rfl | cases instance_
    simp only [collectionAppend, encodeValue, whole, Option.map_some, Option.some.injEq,
      CassItem.scalar.injEq, CassScalar.string.injEq] at element
    exact (cString_eq_self_iff bytes).mp element.symm
  · intro plain
    have encoded (position : Position) :
        encodeValue gmp position (.scalar type) (.scalar value) =
          some (.scalar (bindScalar gmp value)) := by
      rw [encodeValue, encodeScalar_eq_bindScalar gmp instance_, Option.map_some]
      rintro bytes rfl
      have same := (cString_eq_self_iff bytes).mpr (plain bytes rfl)
      cases position <;> simp only [Position.string, same]
    exact ⟨bindScalar gmp value, rfl, rfl, encoded .element, encoded .tupleField,
      encoded .userTypeField⟩

/-- Two bytes without a terminator. -/
theorem encoders_agree_on_text :
    (∃ content, HandedOver Gmp.reference .text (.string [104, 105]) content) ↔
      ∀ bytes, Scalar.string [104, 105] = .string bytes → 0 ∉ bytes :=
  encoders_agree_iff Gmp.reference (by decide)

/-- A terminator inside a string ends it in a parameter and in the field of a user type,
and stays in an element and in the field of a tuple. -/
theorem terminator_cuts_some_encodings :
    bindArgumentByIndex Gmp.reference (.scalar (.string [97, 0, 98])) =
      some (.scalar (.string [97])) ∧
    collectionAppend Gmp.reference (.scalar .text) (.scalar (.string [97, 0, 98])) =
      some (.scalar (.string [97, 0, 98])) ∧
    ¬ ∃ content, HandedOver Gmp.reference .text (.string [97, 0, 98]) content := by
  refine ⟨rfl, rfl, ?_⟩
  rintro ⟨content, handed⟩
  have cut : CassScalar.string [97] = content :=
    CassItem.scalar.inj (Option.some.inj handed.byIndex)
  have whole : CassScalar.string [97, 0, 98] = content :=
    CassItem.scalar.inj (Option.some.inj handed.element)
  exact absurd (cut.trans whole.symm) (by decide)

end PhpDriver
