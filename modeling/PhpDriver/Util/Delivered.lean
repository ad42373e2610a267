import PhpDriver.Util.DriverValue
import PhpDriver.Util.ReturnedFields
import PhpDriver.Util.Slots

namespace PhpDriver

open Data Data.Outcome

/-! What a delivered value stands for, and what may happen on the way to it. -/

variable (gmp : Gmp) (zendHash : List UInt8 → BitVec 32)

mutual

/-- Every element of a list and every field has its value; equal elements of a set and
equal entries of a map are one. Nothing is known of the types without a name. -/
noncomputable def itemMeaning : CassType → CassItem → CassValue
  | .scalar type, .scalar content =>
      match decodeScalar gmp type content with
      | none => .null
      | some value => .scalar value.normal
  | .list valueType, .collection items => .list (itemMeanings valueType items)
  | .map keyType valueType, .collection items =>
      .map (pairMeanings keyType valueType items).eraseDups
  | .set valueType, .collection items => .set (itemMeanings valueType items).eraseDups
  | .tuple types, .tuple items => .tuple ((fieldMeanings types 0 items).map Prod.snd)
  | .userType types, .userType fields => .userType (nameMeanings types fields)
  | _, _ => .null

noncomputable def itemMeanings (valueType : CassType) : List CassItem → List CassValue
  | [] => []
  | item :: items => itemMeaning valueType item :: itemMeanings valueType items

noncomputable def pairMeanings (keyType valueType : CassType) :
    List CassItem → List (CassValue × CassValue)
  | keyItem :: item :: items =>
      (itemMeaning keyType keyItem, itemMeaning valueType item) ::
        pairMeanings keyType valueType items
  | _ => []

/-- Fields that are not delivered are null. -/
noncomputable def fieldMeanings : List CassType → Nat → List CassItem → List (Nat × CassValue)
  | [], _, _ => []
  | types, index, [] => (types.zipIdx index).map fun field => (field.2, .null)
  | type :: types, index, item :: items =>
      (index, itemMeaning type item) :: fieldMeanings types (index + 1) items

noncomputable def nameMeanings : List (List UInt8 × CassType) → List (List UInt8 × CassItem) →
    List (List UInt8 × CassValue)
  | [], _ => []
  | types, [] => types.map fun field => (field.1, .null)
  | (name, type) :: types, (_, item) :: fields =>
      (name, itemMeaning type item) :: nameMeanings types fields

end

/-- A null of a set or a map is refused with an exception, and of two values in one slot
the second is taken for the first. -/
inductive Lossy : CassValue → Prop
  | element {values : List CassValue} {value : CassValue} (member : value ∈ values)
      (lossy : Lossy value) : Lossy (.list values)
  | setNull {values : List CassValue} (null : .null ∈ values) : Lossy (.set values)
  | setMerged {values : List CassValue} {first second : CassValue} (firstIn : first ∈ values)
      (secondIn : second ∈ values) (differ : first ≠ second)
      (same : first.slot zendHash = second.slot zendHash) : Lossy (.set values)
  | mapNull {entries : List (CassValue × CassValue)} {entry : CassValue × CassValue}
      (member : entry ∈ entries) (null : entry.1 = .null ∨ entry.2 = .null) : Lossy (.map entries)
  | mapMerged {entries : List (CassValue × CassValue)} {first second : CassValue × CassValue}
      (firstIn : first ∈ entries) (secondIn : second ∈ entries) (differ : first ≠ second)
      (same : first.1.slot zendHash = second.1.slot zendHash) : Lossy (.map entries)
  | mapValue {entries : List (CassValue × CassValue)} {entry : CassValue × CassValue}
      (member : entry ∈ entries) (lossy : Lossy entry.2) : Lossy (.map entries)
  | tupleField {fields : List CassValue} {value : CassValue} (member : value ∈ fields)
      (lossy : Lossy value) : Lossy (.tuple fields)
  | userTypeField {fields : List (List UInt8 × CassValue)} {field : List UInt8 × CassValue}
      (member : field ∈ fields) (lossy : Lossy field.2) : Lossy (.userType fields)
  -- no type has two fields of one name
  | userTypeMerged {fields : List (List UInt8 × CassValue)} {first second : List UInt8 × CassValue}
      (firstIn : first ∈ fields) (secondIn : second ∈ fields) (differ : first ≠ second)
      (same : first.1 = second.1) : Lossy (.userType fields)

def CassItem.givesNull : CassType → CassItem → Bool
  | _, .null => true
  | .custom _, _ => true
  | _, _ => false

/-- The types whose values have a hash: the strings, ints, doubles and booleans of PHP, and
the classes with a handler. -/
def CassType.hasHash : CassType → Bool
  | .scalar .varint | .scalar .decimal | .scalar .float | .scalar .duration => true
  | type => type.isPlain

def scalarHazards : ScalarType → CassScalar → List Hazard
  | .varint, .bytes [] | .decimal, .decimal [] _ => [.undefined]
  | type, content => if (decodeScalar gmp type content).isSome then [] else [.failure]

def elementHazard (type : CassType) (item : CassItem) : List Hazard :=
  if item.givesNull type || type.hasHash then [] else [.undefined]

def entryHazard (keyType valueType : CassType) (keyItem item : CassItem) : List Hazard :=
  if keyItem.givesNull keyType || item.givesNull valueType || keyType.hasHash then []
  else [.undefined]

mutual

def hazards : CassType → CassItem → List Hazard
  | _, .null => []
  | .custom _, _ => []
  | .scalar type, .scalar content => scalarHazards gmp type content
  | .scalar _, _ => [.failure]
  | .list valueType, .collection items => valueHazards valueType items
  | .map keyType valueType, .collection items => entryHazards keyType valueType items
  | .set valueType, .collection items => elementHazards valueType items
  | .tuple types, .tuple items => fieldHazards types items
  | .userType types, .userType fields => nameHazards types fields
  | _, _ => [.undefined]

def valueHazards (valueType : CassType) : List CassItem → List Hazard
  | [] => []
  | item :: items => hazards valueType item ++ valueHazards valueType items

def elementHazards (valueType : CassType) : List CassItem → List Hazard
  | [] => []
  | item :: items =>
      hazards valueType item ++ (elementHazard valueType item ++ elementHazards valueType items)

def entryHazards (keyType valueType : CassType) : List CassItem → List Hazard
  | [] => []
  | [_] => [.undefined]
  | keyItem :: item :: items =>
      hazards keyType keyItem ++ (hazards valueType item ++
        (entryHazard keyType valueType keyItem item ++ entryHazards keyType valueType items))

/-- A field behind the last type is harmless if it is null. -/
def fieldHazards : List CassType → List CassItem → List Hazard
  | _, [] => []
  | types, .null :: items => fieldHazards types.tail items
  | [], _ :: _ => [.undefined]
  | type :: types, item :: items => hazards type item ++ fieldHazards types items

def nameHazards : List (List UInt8 × CassType) → List (List UInt8 × CassItem) → List Hazard
  | _, [] => []
  | types, (_, .null) :: fields => nameHazards types.tail fields
  | [], _ :: _ => [.undefined]
  | (_, type) :: types, (_, item) :: fields => hazards type item ++ nameHazards types fields

end

end PhpDriver
