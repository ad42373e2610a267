import PhpDriver.Util.OwnValues

namespace PhpDriver

open Data

/-! How many values a type has: none but null, one, or several. -/

namespace CassType

def isInhabited : CassType → Bool
  | .custom _ => false
  | _ => true

/-- More than one value that is not null. A collection may have null for an element. -/
def isSeveral : CassType → Bool
  | .scalar _ | .list _ => true
  | .custom _ => false
  | .set valueType => valueType.isInhabited
  | .map keyType valueType => keyType.isInhabited && valueType.isInhabited
  | .tuple types => !types.isEmpty
  | .userType types => !types.isEmpty

end CassType

def ScalarType.sample : ScalarType → Scalar
  | .ascii | .text | .varchar => .string []
  | .bigint | .counter => .bigint 0
  | .blob => .blob []
  | .boolean => .bool false
  | .decimal => .decimal { value := 0, scale := 0 }
  | .double => .double 0
  | .float => .float 0
  | .int => .long 0
  | .timestamp => .timestamp 0
  | .uuid => .uuid 0 0
  | .varint => .varint 0
  | .timeuuid => .timeuuid 0 0
  | .inet => .inet []
  | .date => .date 0
  | .time => .time 0
  | .smallint => .smallint 0
  | .tinyint => .tinyint 0
  | .duration => .duration 0 0 0

def ScalarType.other : ScalarType → Scalar
  | .ascii | .text | .varchar => .string [0x61]
  | .bigint | .counter => .bigint 1
  | .blob => .blob [0x61]
  | .boolean => .bool true
  | .decimal => .decimal { value := 0, scale := 1 }
  | .double => .double 0x3ff0000000000000
  | .float => .float 0x3f800000
  | .int => .long 1
  | .timestamp => .timestamp 1
  | .uuid => .uuid 0 1
  | .varint => .varint 1
  | .timeuuid => .timeuuid 0 1
  | .inet => .inet [0x61]
  | .date => .date 1
  | .time => .time 1
  | .smallint => .smallint 1
  | .tinyint => .tinyint 1
  | .duration => .duration 0 0 1

namespace PhpValue

def sample : CassType → PhpValue
  | .scalar type => .scalar type.sample
  | .custom _ => .null
  | .list valueType => .collection valueType []
  | .set valueType => .set valueType {} []
  | .map keyType valueType => .map keyType valueType {} []
  | .tuple types => .tuple types []
  | .userType types => .userTypeValue types []

def oneChain : Chains :=
  { order := [0] }

def other : CassType → PhpValue
  | .scalar type => .scalar type.other
  | .custom _ => .null
  | .list valueType => .collection valueType [.null]
  | .set valueType => .set valueType oneChain [sample valueType]
  | .map keyType valueType =>
      .map keyType valueType oneChain [(sample keyType, sample valueType)]
  | .tuple types => .tuple types [(0, .null)]
  | .userType types => .userTypeValue types (types.head?.toList.map fun field => (field.1, .null))

theorem emptyChains_hold : ({} : Chains).Holds [] where
  order := List.Perm.refl _
  initial := Nat.le_refl _
  distinct := List.Pairwise.nil

theorem oneChain_holds (key : PhpValue) : oneChain.Holds [key] where
  order := List.Perm.refl _
  initial := Nat.le_refl _
  distinct := List.pairwise_singleton _ _

theorem isInstance_sample (type : ScalarType) : type.isInstance type.sample := by
  cases type <;> rfl

theorem isInstance_other (type : ScalarType) : type.isInstance type.other := by
  cases type <;> rfl

theorem sample_typed (type : CassType) : OfType type (sample type) := by
  cases type with
  | scalar type => exact ofType_scalar_iff.mpr ⟨type, rfl, isInstance_sample type⟩
  | custom _ => exact ofType_null _
  | list _ => exact ofType_collection_iff.mpr ⟨rfl, by simp⟩
  | set _ => exact ofType_set_iff.mpr ⟨rfl, emptyChains_hold, by simp⟩
  | map _ _ => exact ofType_map_iff.mpr ⟨⟨rfl, rfl⟩, emptyChains_hold, by simp⟩
  | tuple _ => exact ofType_tuple_iff.mpr ⟨rfl, by simp, by simp⟩
  | userType _ => exact ofType_userTypeValue_iff.mpr ⟨rfl, by simp, by simp⟩

theorem sample_ne_null {type : CassType} (inhabited : type.isInhabited) :
    sample type ≠ .null := by
  cases type with
  | custom _ => cases inhabited
  | _ => simp [sample]

theorem ofType_singleton {type own : CassType} (same : own.canonical = type.canonical)
    {value : PhpValue} (typed : OfType type value) (nonnull : value ≠ .null) :
    OfType (.set type) (.set own oneChain [value]) :=
  ofType_set_iff.mpr ⟨same, oneChain_holds value, by simp [typed, nonnull]⟩

theorem ofType_entry {keyType valueType : CassType} {key value : PhpValue}
    (keyTyped : OfType keyType key) (keyNonnull : key ≠ .null) (typed : OfType valueType value)
    (nonnull : value ≠ .null) :
    OfType (.map keyType valueType) (.map keyType valueType oneChain [(key, value)]) :=
  ofType_map_iff.mpr ⟨⟨rfl, rfl⟩, oneChain_holds key, by simp [keyTyped, keyNonnull, typed, nonnull]⟩

theorem other_typed {type : CassType} (several : type.isSeveral) : OfType type (other type) := by
  cases type with
  | scalar type => exact ofType_scalar_iff.mpr ⟨type, rfl, isInstance_other type⟩
  | custom _ => cases several
  | list _ => exact ofType_collection_iff.mpr ⟨rfl, by simp [ofType_null]⟩
  | set _ => exact ofType_singleton rfl (sample_typed _) (sample_ne_null several)
  | map _ _ =>
      obtain ⟨keyInhabited, valueInhabited⟩ := Bool.and_eq_true_iff.mp several
      exact ofType_entry (sample_typed _) (sample_ne_null keyInhabited) (sample_typed _)
        (sample_ne_null valueInhabited)
  | tuple types =>
      cases types with
      | nil => cases several
      | cons first rest =>
          exact ofType_tuple_iff.mpr ⟨rfl, by simp, by simp [ofType_null]⟩
  | userType types =>
      cases types with
      | nil => cases several
      | cons first rest =>
          refine ofType_userTypeValue_iff.mpr ⟨rfl, by simp, ?_⟩
          simp only [List.head?_cons, Option.toList_some, List.map_cons, List.map_nil,
            List.mem_singleton, forall_eq]
          exact ⟨first.2, List.mem_cons_self, ofType_null _⟩

theorem other_ne_null {type : CassType} (several : type.isSeveral) : other type ≠ .null := by
  cases type with
  | custom _ => cases several
  | _ => simp [other]

theorem compareAlike_samples (type : ScalarType) :
    (Scalar.zType type.sample ≠ Scalar.zType type.other ∨
      type.sample.compareAlike type.other ≠ 0 ∧ type.other.compareAlike type.sample ≠ 0) := by
  cases type <;> first | exact Or.inl (by decide) | exact Or.inr (by decide)

theorem samples_differ {type : CassType} (several : type.isSeveral) :
    ownCompare (sample type) (other type) ≠ 0 ∧ ownCompare (other type) (sample type) ≠ 0 := by
  cases type with
  | scalar type =>
      simp only [sample, other]
      by_cases types : type.sample.zType = type.other.zType
      · rw [ownCompare_scalar types, ownCompare_scalar types.symm]
        exact (compareAlike_samples type).resolve_left (not_not_intro types)
      · have differ : (scalar type.sample).zType ≠ (scalar type.other).zType := types
        rw [ownCompare_of_zType differ, ownCompare_of_zType differ.symm, ne_eq, ne_eq,
          compareNat_eq_zero_iff, compareNat_eq_zero_iff]
        exact ⟨differ, differ.symm⟩
  | custom _ => cases several
  | userType types =>
      cases types with
      | nil => cases several
      | cons first rest =>
          rw [ownCompare_containers rfl rfl rfl, ownCompare_containers rfl rfl rfl,
            typeCompare_self]
          exact ⟨by simp [sample, other, elements, thenCompare, compareNat],
            by simp [sample, other, elements, thenCompare, compareNat]⟩
  | _ =>
      rw [sample, other, ownCompare_containers rfl rfl rfl, ownCompare_containers rfl rfl rfl,
        typeCompare_self]
      exact ⟨by simp [elements, thenCompare, compareNat],
        by simp [elements, thenCompare, compareNat]⟩

end PhpValue

end PhpDriver
