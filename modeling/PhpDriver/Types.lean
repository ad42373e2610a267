namespace PhpDriver

/-! The type objects of `util/types.c`. A user type keeps the names and types of its
fields; its keyspace and its own name take no part in comparisons. -/

inductive ScalarType where
  | ascii | bigint | blob | boolean | counter | decimal | double | float | int | text
  | timestamp | uuid | varchar | varint | timeuuid | inet | date | time | smallint
  | tinyint | duration
deriving DecidableEq

/-- The numbers of `CassValueType`. -/
def ScalarType.valueType : ScalarType → Nat
  | .ascii => 0x01
  | .bigint => 0x02
  | .blob => 0x03
  | .boolean => 0x04
  | .counter => 0x05
  | .decimal => 0x06
  | .double => 0x07
  | .float => 0x08
  | .int => 0x09
  | .text => 0x0A
  | .timestamp => 0x0B
  | .uuid => 0x0C
  | .varchar => 0x0D
  | .varint => 0x0E
  | .timeuuid => 0x0F
  | .inet => 0x10
  | .date => 0x11
  | .time => 0x12
  | .smallint => 0x13
  | .tinyint => 0x14
  | .duration => 0x15

inductive CassType where
  | scalar (type : ScalarType)
  | custom (className : List UInt8)
  | list (valueType : CassType)
  | map (keyType valueType : CassType)
  | set (valueType : CassType)
  | tuple (types : List CassType)
  | userType (types : List (List UInt8 × CassType))

namespace CassType

def valueType : CassType → Nat
  | .scalar type => type.valueType
  | .custom _ => 0x00
  | .list _ => 0x20
  | .map _ _ => 0x21
  | .set _ => 0x22
  | .userType _ => 0x30
  | .tuple _ => 0x31

end CassType

def isStringType (valueType : Nat) : Bool :=
  valueType == ScalarType.varchar.valueType || valueType == ScalarType.text.valueType

def compareNat (first second : Nat) : Int :=
  if first < second then -1 else if second < first then 1 else 0

def valueTypeCompare (first second : Nat) : Int :=
  if first ≠ second then
    -- varchar and text are aliases
    if isStringType first && isStringType second then 0 else compareNat first second
  else 0

def memcmp : List UInt8 → List UInt8 → Int
  | first :: restFirst, second :: restSecond =>
      if first = second then memcmp restFirst restSecond
      else compareNat first.toNat second.toNat
  | _, _ => 0

def stringCompare (first second : List UInt8) : Int :=
  if first.length ≠ second.length then compareNat first.length second.length
  else memcmp first second

mutual

def typeCompare : CassType → CassType → Int
  | .list first, .list second => typeCompare first second
  | .map firstKey firstValue, .map secondKey secondValue =>
      let result := typeCompare firstKey secondKey
      if result ≠ 0 then result else typeCompare firstValue secondValue
  | .set first, .set second => typeCompare first second
  | .tuple first, .tuple second =>
      if first.length ≠ second.length then compareNat first.length second.length
      else tupleCompare first second
  | .userType first, .userType second =>
      if first.length ≠ second.length then compareNat first.length second.length
      else userTypeCompare first second
  | first, second => valueTypeCompare first.valueType second.valueType

def tupleCompare : List CassType → List CassType → Int
  | first :: restFirst, second :: restSecond =>
      let result := typeCompare first second
      if result ≠ 0 then result else tupleCompare restFirst restSecond
  | _, _ => 0

def userTypeCompare : List (List UInt8 × CassType) → List (List UInt8 × CassType) → Int
  | (firstKey, first) :: restFirst, (secondKey, second) :: restSecond =>
      let result := stringCompare firstKey secondKey
      if result ≠ 0 then result
      else
        let result := typeCompare first second
        if result ≠ 0 then result else userTypeCompare restFirst restSecond
  | _, _ => 0

end

/-! Two types compare as equal when they differ in the aliases and in the class names of
custom types only. -/

theorem compareNat_eq_zero_iff {first second : Nat} :
    compareNat first second = 0 ↔ first = second := by
  grind [compareNat]

theorem memcmp_eq_zero_iff {first second : List UInt8} (sameLength : first.length = second.length) :
    memcmp first second = 0 ↔ first = second := by
  induction first generalizing second with
  | nil => cases second with
    | nil => simp [memcmp]
    | cons _ _ => simp at sameLength
  | cons head rest ih => cases second with
    | nil => simp at sameLength
    | cons other others =>
        rw [memcmp]
        split
        · rename_i same
          rw [ih (Nat.succ.inj sameLength), same]
          simp
        · rename_i differs
          rw [compareNat_eq_zero_iff, UInt8.toNat_inj]
          simp [differs]

theorem stringCompare_eq_zero_iff {first second : List UInt8} :
    stringCompare first second = 0 ↔ first = second := by
  rw [stringCompare]
  split
  · rename_i differs
    rw [compareNat_eq_zero_iff]
    exact ⟨fun same => absurd same differs, fun same => by rw [same]⟩
  · rename_i sameLength
    exact memcmp_eq_zero_iff (Decidable.not_not.mp sameLength)

def ScalarType.canonical : ScalarType → ScalarType
  | .varchar => .text
  | type => type

namespace CassType

mutual

def canonical : CassType → CassType
  | .scalar type => .scalar type.canonical
  -- the names of custom classes are not compared
  | .custom _ => .custom []
  | .list valueType => .list (canonical valueType)
  | .map keyType valueType => .map (canonical keyType) (canonical valueType)
  | .set valueType => .set (canonical valueType)
  | .tuple types => .tuple (canonicals types)
  | .userType types => .userType (canonicalFields types)

def canonicals : List CassType → List CassType
  | [] => []
  | type :: types => canonical type :: canonicals types

def canonicalFields : List (List UInt8 × CassType) → List (List UInt8 × CassType)
  | [] => []
  | (name, type) :: types => (name, canonical type) :: canonicalFields types

end

theorem canonicals_eq_map (types : List CassType) :
    canonicals types = types.map canonical := by
  induction types with
  | nil => rfl
  | cons type types ih => rw [canonicals, ih, List.map_cons]

theorem canonicalFields_eq_map (types : List (List UInt8 × CassType)) :
    canonicalFields types = types.map fun field => (field.1, field.2.canonical) := by
  induction types with
  | nil => rfl
  | cons field types ih => rw [canonicalFields, ih, List.map_cons]

end CassType

private theorem scalarCompare_eq_zero_iff (first second : ScalarType) :
    typeCompare (.scalar first) (.scalar second) = 0 ↔ first.canonical = second.canonical := by
  cases first <;> cases second <;> decide

theorem scalar_valueType_ne (type : ScalarType) {other : Nat}
    (outside : other = 0 ∨ 0x20 ≤ other) : type.valueType ≠ other := by
  have range : 0 < type.valueType ∧ type.valueType < 0x20 := by cases type <;> decide
  omega

private theorem valueTypeCompare_ne_zero {first second : Nat} (differs : first ≠ second)
    (outside : (first = 0 ∨ 0x20 ≤ first) ∨ (second = 0 ∨ 0x20 ≤ second)) :
    valueTypeCompare first second ≠ 0 := by
  have notAliases : (isStringType first && isStringType second) = false := by
    grind [isStringType, ScalarType.valueType]
  rw [valueTypeCompare, if_pos differs, notAliases, ne_eq, if_neg (by decide),
    compareNat_eq_zero_iff]
  exact differs

mutual

theorem typeCompare_eq_zero_iff :
    ∀ first second : CassType,
      typeCompare first second = 0 ↔ first.canonical = second.canonical
  | .scalar first, .scalar second => by
      rw [scalarCompare_eq_zero_iff, CassType.canonical, CassType.canonical,
        CassType.scalar.injEq]
  | .list first, .list second => by
      simp only [typeCompare, CassType.canonical, CassType.list.injEq]
      exact typeCompare_eq_zero_iff first second
  | .map firstKey firstValue, .map secondKey secondValue => by
      have keys := typeCompare_eq_zero_iff firstKey secondKey
      have values := typeCompare_eq_zero_iff firstValue secondValue
      simp only [typeCompare, CassType.canonical, CassType.map.injEq, ← keys, ← values]
      grind
  | .set first, .set second => by
      simp only [typeCompare, CassType.canonical, CassType.set.injEq]
      exact typeCompare_eq_zero_iff first second
  | .tuple first, .tuple second => by
      have types := tupleCompare_eq_zero_iff first second
      simp only [typeCompare, CassType.canonical, CassType.tuple.injEq]
      split
      · rename_i lengths
        rw [compareNat_eq_zero_iff]
        exact ⟨fun same => absurd same lengths, fun same => absurd (by
          simpa [CassType.canonicals_eq_map] using congrArg List.length same) lengths⟩
      · rename_i lengths
        exact types (Decidable.not_not.mp lengths)
  | .userType first, .userType second => by
      have types := userTypeCompare_eq_zero_iff first second
      simp only [typeCompare, CassType.canonical, CassType.userType.injEq]
      split
      · rename_i lengths
        rw [compareNat_eq_zero_iff]
        exact ⟨fun same => absurd same lengths, fun same => absurd (by
          simpa [CassType.canonicalFields_eq_map] using congrArg List.length same) lengths⟩
      · rename_i lengths
        exact types (Decidable.not_not.mp lengths)
  | .custom _, .custom _ => by
      simp [typeCompare, CassType.canonical, CassType.valueType, valueTypeCompare]
  | .scalar type, .custom _ | .scalar type, .list _ | .scalar type, .map _ _
  | .scalar type, .set _ | .scalar type, .tuple _ | .scalar type, .userType _ => by
      simp only [typeCompare, CassType.canonical, reduceCtorEq, iff_false]
      apply valueTypeCompare_ne_zero
      · exact scalar_valueType_ne type (by simp [CassType.valueType])
      · exact Or.inr (by simp [CassType.valueType])
  | .custom _, .scalar type | .list _, .scalar type | .map _ _, .scalar type
  | .set _, .scalar type | .tuple _, .scalar type | .userType _, .scalar type => by
      simp only [typeCompare, CassType.canonical, reduceCtorEq, iff_false]
      apply valueTypeCompare_ne_zero
      · exact (scalar_valueType_ne type (by simp [CassType.valueType])).symm
      · exact Or.inl (by simp [CassType.valueType])
  | .custom _, .list _ | .custom _, .map _ _ | .custom _, .set _ | .custom _, .tuple _
  | .custom _, .userType _
  | .list _, .custom _ | .list _, .map _ _ | .list _, .set _ | .list _, .tuple _
  | .list _, .userType _
  | .map _ _, .custom _ | .map _ _, .list _ | .map _ _, .set _ | .map _ _, .tuple _
  | .map _ _, .userType _
  | .set _, .custom _ | .set _, .list _ | .set _, .map _ _ | .set _, .tuple _
  | .set _, .userType _
  | .tuple _, .custom _ | .tuple _, .list _ | .tuple _, .map _ _ | .tuple _, .set _
  | .tuple _, .userType _
  | .userType _, .custom _ | .userType _, .list _ | .userType _, .map _ _
  | .userType _, .set _ | .userType _, .tuple _ => by
      simp only [typeCompare, CassType.canonical, reduceCtorEq, iff_false]
      exact valueTypeCompare_ne_zero (by simp [CassType.valueType])
        (Or.inl (by simp [CassType.valueType]))

theorem tupleCompare_eq_zero_iff :
    ∀ first second : List CassType, first.length = second.length →
      (tupleCompare first second = 0 ↔
        CassType.canonicals first = CassType.canonicals second)
  | [], [], _ => by simp [tupleCompare]
  | first :: restFirst, second :: restSecond, sameLength => by
      have head := typeCompare_eq_zero_iff first second
      have rest := tupleCompare_eq_zero_iff restFirst restSecond (Nat.succ.inj sameLength)
      simp only [tupleCompare, CassType.canonicals, List.cons.injEq, ← head, ← rest]
      grind
  | [], _ :: _, sameLength => by simp at sameLength
  | _ :: _, [], sameLength => by simp at sameLength

theorem userTypeCompare_eq_zero_iff :
    ∀ first second : List (List UInt8 × CassType), first.length = second.length →
      (userTypeCompare first second = 0 ↔
        CassType.canonicalFields first = CassType.canonicalFields second)
  | [], [], _ => by simp [userTypeCompare]
  | (firstKey, first) :: restFirst, (secondKey, second) :: restSecond, sameLength => by
      have key := @stringCompare_eq_zero_iff firstKey secondKey
      have head := typeCompare_eq_zero_iff first second
      have rest := userTypeCompare_eq_zero_iff restFirst restSecond (Nat.succ.inj sameLength)
      simp only [userTypeCompare, CassType.canonicalFields, List.cons.injEq, Prod.mk.injEq,
        ← key, ← head, ← rest]
      grind
  | [], _ :: _, sameLength => by simp at sameLength
  | _ :: _, [], sameLength => by simp at sameLength

end

end PhpDriver
