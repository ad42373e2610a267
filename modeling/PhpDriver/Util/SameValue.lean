import Mathlib.Data.List.Forall2
import PhpDriver.Values

namespace PhpDriver

/-! When two Cassandra values are the same: in sets and maps, at any depth, the order does
not count. -/

inductive CassValue.Same : CassValue → CassValue → Prop
  | null : Same .null .null
  | scalar (value : Scalar) : Same (.scalar value) (.scalar value)
  | foreign : Same .foreign .foreign
  | list {values others : List CassValue} (each : List.Forall₂ Same values others) :
      Same (.list values) (.list others)
  | set {values arranged others : List CassValue} (order : values.Perm arranged)
      (each : List.Forall₂ Same arranged others) : Same (.set values) (.set others)
  | map {entries arranged others : List (CassValue × CassValue)} (order : entries.Perm arranged)
      (keys : List.Forall₂ Same (arranged.map Prod.fst) (others.map Prod.fst))
      (values : List.Forall₂ Same (arranged.map Prod.snd) (others.map Prod.snd)) :
      Same (.map entries) (.map others)
  | tuple {fields others : List CassValue} (each : List.Forall₂ Same fields others) :
      Same (.tuple fields) (.tuple others)
  | userType {fields others : List (List UInt8 × CassValue)}
      (names : fields.map Prod.fst = others.map Prod.fst)
      (each : List.Forall₂ Same (fields.map Prod.snd) (others.map Prod.snd)) :
      Same (.userType fields) (.userType others)

namespace CassValue

mutual

theorem Same.refl : (value : CassValue) → Same value value
  | .null => .null
  | .scalar value => .scalar value
  | .foreign => .foreign
  | .list values => .list (each_refl values)
  | .set values => .set (List.Perm.refl values) (each_refl values)
  | .map entries => .map (List.Perm.refl entries) (keys_refl entries) (entries_refl entries)
  | .tuple fields => .tuple (each_refl fields)
  | .userType fields => .userType rfl (fields_refl fields)

theorem each_refl : (values : List CassValue) → List.Forall₂ Same values values
  | [] => .nil
  | value :: values => .cons (Same.refl value) (each_refl values)

theorem keys_refl : (entries : List (CassValue × CassValue)) →
    List.Forall₂ Same (entries.map Prod.fst) (entries.map Prod.fst)
  | [] => .nil
  | (key, _) :: entries => .cons (Same.refl key) (keys_refl entries)

theorem entries_refl : (entries : List (CassValue × CassValue)) →
    List.Forall₂ Same (entries.map Prod.snd) (entries.map Prod.snd)
  | [] => .nil
  | (_, value) :: entries => .cons (Same.refl value) (entries_refl entries)

theorem fields_refl : (fields : List (List UInt8 × CassValue)) →
    List.Forall₂ Same (fields.map Prod.snd) (fields.map Prod.snd)
  | [] => .nil
  | (_, value) :: fields => .cons (Same.refl value) (fields_refl fields)

end

theorem same_scalar_iff {value : Scalar} {other : CassValue} :
    Same (.scalar value) other ↔ .scalar value = other := by
  constructor
  · intro same
    cases same
    rfl
  · rintro rfl
    exact .scalar value

end CassValue

def Zval.Same (first second : Zval) : Prop :=
  first.meaning.Same second.meaning

namespace Zval

theorem Same.refl (value : Zval) : value.Same value :=
  CassValue.Same.refl value.meaning

theorem same_scalar_iff {value : Scalar} {other : Zval} :
    (Zval.scalar value).Same other ↔ (Zval.scalar value).meaning = other.meaning :=
  CassValue.same_scalar_iff

theorem forall₂_same_refl (values : List Zval) : List.Forall₂ Same values values := by
  induction values with
  | nil => exact .nil
  | cons value values ih => exact .cons (Same.refl value) ih

/-- Lists of scalars are the same when they have the same meanings. -/
theorem forall₂_same_iff {values others : List Zval}
    (scalars : ∀ value ∈ values, ∃ scalar, value = .scalar scalar) :
    List.Forall₂ Same values others ↔ values.map meaning = others.map meaning := by
  induction values generalizing others with
  | nil => cases others <;> simp
  | cons value values ih =>
      rw [List.forall_mem_cons] at scalars
      obtain ⟨scalar, rfl⟩ := scalars.1
      cases others with
      | nil => simp
      | cons other others =>
          rw [List.forall₂_cons, same_scalar_iff, ih scalars.2, List.map_cons, List.map_cons,
            List.cons.injEq]

end Zval

end PhpDriver
