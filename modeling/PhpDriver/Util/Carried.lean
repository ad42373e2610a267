import PhpDriver.Util.Encode
import PhpDriver.Util.Result

namespace PhpDriver

open Data

/-! The values that come back from the encoders and the decoder as they were. -/

def FitsInt32 (value : BitVec 64) : Prop :=
  -0x80000000 ≤ value.toInt ∧ value.toInt ≤ 0x7fffffff

def Scalar.Carried (position : Position) : Scalar → Prop
  | .string bytes => position = .userTypeField → 0 ∉ bytes
  | .long value => FitsInt32 value
  | .varint value => ¬ ScanMistakes value
  | .decimal value => ¬ ScanMistakes value.value ∧ FitsInt32 value.scale
  | _ => True

/-- Every stored field is put under one name. A field with another name is null, the type
has the one name, and the field must not overwrite what was put there before. -/
def NamesCarried (types : OrderedMap (List UInt8) CassType)
    (values : OrderedMap (List UInt8) Zval) : Prop :=
  ∀ before name value after, values = before ++ (name, value) :: after → name ≠ fieldName →
    value.isNull ∧ fieldName ∈ types.keys ∧
      ∀ other, (fieldName, other) ∈ before → other.isNull

namespace Zval

mutual

def Carried (position : Position) : Zval → Prop
  | .null => position ≠ .element
  | .scalar value => value.Carried position
  | .collection _ values => AllCarried values
  | .set _ values => AllCarried values
  | .map _ _ entries => EntriesCarried entries
  | .tuple _ values => IndexedCarried values
  | .userTypeValue types values => NamesCarried types values ∧ NamedCarried values
  | .foreign => False

def AllCarried : List Zval → Prop
  | [] => True
  | value :: values => Carried .element value ∧ AllCarried values

def EntriesCarried : List (Zval × Zval) → Prop
  | [] => True
  | (key, value) :: entries =>
      Carried .element key ∧ Carried .element value ∧ EntriesCarried entries

def IndexedCarried : List (Nat × Zval) → Prop
  | [] => True
  | (_, value) :: values => Carried .tupleField value ∧ IndexedCarried values

def NamedCarried : List (List UInt8 × Zval) → Prop
  | [] => True
  | (_, value) :: values => Carried .userTypeField value ∧ NamedCarried values

end

theorem allCarried_iff (values : List Zval) :
    AllCarried values ↔ ∀ value ∈ values, Carried .element value := by
  induction values with
  | nil => simp [AllCarried]
  | cons value values ih => rw [AllCarried, ih, List.forall_mem_cons]

theorem entriesCarried_iff (entries : List (Zval × Zval)) :
    EntriesCarried entries ↔
      ∀ entry ∈ entries, Carried .element entry.1 ∧ Carried .element entry.2 := by
  induction entries with
  | nil => simp [EntriesCarried]
  | cons entry entries ih => rw [EntriesCarried, ih, List.forall_mem_cons, and_assoc]

theorem indexedCarried_iff (values : List (Nat × Zval)) :
    IndexedCarried values ↔ ∀ field ∈ values, Carried .tupleField field.2 := by
  induction values with
  | nil => simp [IndexedCarried]
  | cons field values ih => rw [IndexedCarried, ih, List.forall_mem_cons]

theorem namedCarried_iff (values : List (List UInt8 × Zval)) :
    NamedCarried values ↔ ∀ field ∈ values, Carried .userTypeField field.2 := by
  induction values with
  | nil => simp [NamedCarried]
  | cons field values ih => rw [NamedCarried, ih, List.forall_mem_cons]

end Zval

variable (gmp : Gmp)

/-- The scalar that a scalar comes back as. -/
def Scalar.returned (position : Position) : Scalar → Option Scalar
  | .string bytes => some (.string (position.string bytes))
  | .long value => some (.long ((value.setWidth 32).signExtend 64))
  | .varint value =>
      (importTwosComplement gmp (exportTwosComplement gmp value)).map .varint
  | .decimal value =>
      (importTwosComplement gmp (exportTwosComplement gmp value.value)).map fun number =>
        .decimal { value := number, scale := (value.scale.setWidth 32).signExtend 64 }
  | value => some value

theorem encodeScalar_bind_decodeScalar (position : Position) {type : ScalarType}
    {value : Scalar} (holds : type.isInstance value) :
    (encodeScalar gmp position type value).bind (decodeScalar gmp type) =
      value.returned gmp position := by
  cases type.instance_of holds <;> rfl

theorem setWidth_signExtend_eq_iff (value : BitVec 64) :
    (value.setWidth 32).signExtend 64 = value ↔ FitsInt32 value := by
  rw [← BitVec.toInt_inj, BitVec.toInt_signExtend_of_le (by decide), BitVec.toInt_setWidth,
    FitsInt32, BitVec.toInt_eq_toNat_bmod]
  have bound := value.isLt
  simp only [Int.bmod_def]
  omega

theorem import_exportTwosComplement_eq_some_iff (number : Int) :
    importTwosComplement gmp (exportTwosComplement gmp number) = some number ↔
      ¬ ScanMistakes number := by
  constructor
  · intro same mistakes
    have nonempty : exportTwosComplement gmp number ≠ [] := by
      intro empty
      rw [empty] at same
      cases same
    rw [importTwosComplement_eq gmp nonempty] at same
    exact exportTwosComplement_scanMistakes gmp mistakes (Option.some.inj same)
  · intro apart
    obtain ⟨nonempty, value⟩ := toInt_exportTwosComplement gmp apart
    rw [importTwosComplement_eq gmp nonempty, value]

theorem Position.string_eq_self_iff (position : Position) (bytes : List UInt8) :
    position.string bytes = bytes ↔ (position = .userTypeField → 0 ∉ bytes) := by
  cases position with
  | element | tupleField => simp [Position.string]
  | userTypeField => simp [Position.string, cString_eq_self_iff]

theorem Scalar.returned_iff (position : Position) (value : Scalar) :
    (∃ out, value.returned gmp position = some out ∧ out.normal = value.normal) ↔
      value.Carried position := by
  cases value with
  | string bytes =>
      simp [returned, Carried, normal, ← Position.string_eq_self_iff]
  | long value =>
      simp [returned, Carried, normal, ← setWidth_signExtend_eq_iff]
  | varint value =>
      simp [returned, Carried, normal, ← import_exportTwosComplement_eq_some_iff gmp]
  | decimal value =>
      simp only [returned, Carried, ← import_exportTwosComplement_eq_some_iff gmp,
        ← setWidth_signExtend_eq_iff, Option.map_eq_some_iff]
      constructor
      · rintro ⟨_, ⟨number, same, rfl⟩, equal⟩
        simp only [normal, Scalar.decimal.injEq, Decimal.ext_iff] at equal
        exact ⟨by rw [same, equal.1], equal.2⟩
      · rintro ⟨same, scale⟩
        exact ⟨_, ⟨value.value, same, rfl⟩, by rw [scale]⟩
  | _ => simp [returned, Carried]

end PhpDriver
