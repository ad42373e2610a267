import PhpDriver.Data.Outcome
import PhpDriver.Util.Result

namespace PhpDriver

open Data

/-! `php_driver_value` with the way it ends: `FAILURE`, `SUCCESS` with the exceptions that
are then pending, or undefined behaviour. -/

variable (gmp : Gmp) (zendHash : List UInt8 → BitVec 32)

/-- The getters refuse content of another kind, and bytes that are too few for theirs. -/
def driverScalar : ScalarType → CassScalar → Data.Outcome Thrown Scalar
  | .varint, .bytes bytes => .ofOption ((importTwosComplement gmp bytes).map .varint)
  | .decimal, .decimal varint scale =>
      .ofOption ((importTwosComplement gmp varint).map fun value =>
        .decimal { value, scale := scale.signExtend 64 })
  | type, content =>
      match decodeScalar gmp type content with
      | none => .failure []
      | some value => .success value []

/-- The result of `php_driver_set_add` is not looked at. -/
def driverSetAdd (set : PhpSet) (object : Zval) : Data.Outcome Thrown PhpSet :=
  match setAdd zendHash set object with
  | none => .undefined
  | some (next, answer) => .success next answer.thrown.toList

def driverMapSet (map : PhpMap) (key value : Zval) : Data.Outcome Thrown PhpMap :=
  match mapSet zendHash map key value with
  | none => .undefined
  | some (next, answer) => .success next answer.thrown.toList

mutual

/-- The driver hands over values of the type: no other iterator is null. -/
def driverValue : CassType → CassItem → Data.Outcome Thrown Zval
  | _, .null => pure .null
  | .custom _, _ => pure .null
  | .scalar type, .scalar content => do
      let value ← driverScalar gmp type content
      pure (.scalar value)
  | .scalar _, _ => .failure []
  | .list valueType, .collection items => do
      let values ← driverValues valueType items
      pure (.collection valueType values)
  | .map keyType valueType, .collection items => do
      let map ← driverEntries keyType valueType { keyType, valueType } items
      pure map.toZval
  | .set valueType, .collection items => do
      let set ← driverElements valueType { valueType } items
      pure set.toZval
  | .tuple types, .tuple items => do
      let values ← driverFields types 0 items
      pure (.tuple types values)
  | .userType types, .userType fields => do
      let values ← driverFieldsByName types fields
      pure (.userTypeValue types values)
  | _, _ => .undefined

def driverValues (valueType : CassType) : List CassItem → Data.Outcome Thrown (List Zval)
  | [] => pure []
  | item :: items => do
      let value ← driverValue valueType item
      let values ← driverValues valueType items
      pure (value :: values)

def driverElements (valueType : CassType) (set : PhpSet) : List CassItem → Data.Outcome Thrown PhpSet
  | [] => pure set
  | item :: items => do
      let value ← driverValue valueType item
      let set ← driverSetAdd zendHash set value
      driverElements valueType set items

def driverEntries (keyType valueType : CassType) (map : PhpMap) :
    List CassItem → Data.Outcome Thrown PhpMap
  | [] => pure map
  | [_] => .undefined
  | keyItem :: item :: items => do
      let key ← driverValue keyType keyItem
      let value ← driverValue valueType item
      let map ← driverMapSet zendHash map key value
      driverEntries keyType valueType map items

/-- There is no type for a field behind the last one. -/
def driverFields : List CassType → Nat → List CassItem → Data.Outcome Thrown (List (Nat × Zval))
  | _, _, [] => pure []
  | types, index, .null :: items => driverFields types.tail (index + 1) items
  | [], _, _ :: _ => .undefined
  | type :: types, index, item :: items => do
      let value ← driverValue type item
      let values ← driverFields types (index + 1) items
      pure ((index, value) :: values)

def driverFieldsByName : List (List UInt8 × CassType) → List (List UInt8 × CassItem) →
    Data.Outcome Thrown (List (List UInt8 × Zval))
  | _, [] => pure []
  | types, (_, .null) :: fields => driverFieldsByName types.tail fields
  | [], _ :: _ => .undefined
  | (name, type) :: types, (_, item) :: fields => do
      let value ← driverValue type item
      let values ← driverFieldsByName types fields
      pure ((name, value) :: values)

end

variable {gmp zendHash}

theorem toOption_driverScalar (type : ScalarType) (content : CassScalar) :
    (driverScalar gmp type content).toOption = decodeScalar gmp type content := by
  unfold driverScalar
  split
  · exact Outcome.toOption_ofOption _
  · exact Outcome.toOption_ofOption _
  · cases decodeScalar gmp type content <;> rfl

theorem toOption_driverSetAdd (set : PhpSet) (object : Zval) :
    (driverSetAdd zendHash set object).toOption =
      (setAdd zendHash set object).map Prod.fst := by
  unfold driverSetAdd
  cases setAdd zendHash set object <;> rfl

theorem toOption_driverMapSet (map : PhpMap) (key value : Zval) :
    (driverMapSet zendHash map key value).toOption =
      (mapSet zendHash map key value).map Prod.fst := by
  unfold driverMapSet
  cases mapSet zendHash map key value <;> rfl

mutual

theorem toOption_driverValue (type : CassType) (item : CassItem) :
    (driverValue gmp zendHash type item).toOption = decodeValue gmp zendHash type item := by
  cases item with
  | null => cases type <;> rfl
  | scalar content =>
      cases type with
      | scalar type =>
          simp [driverValue, decodeValue, toOption_driverScalar, Option.map_eq_bind]
      | _ => rfl
  | collection items =>
      cases type with
      | list valueType =>
          simp [driverValue, decodeValue, toOption_driverValues valueType items,
            Option.map_eq_bind]
      | map keyType valueType =>
          simp [driverValue, decodeValue, toOption_driverEntries keyType valueType _ items,
            Option.bind_assoc]
      | set valueType =>
          simp [driverValue, decodeValue, toOption_driverElements valueType _ items,
            Option.bind_assoc]
      | _ => rfl
  | tuple items =>
      cases type with
      | tuple types =>
          simp [driverValue, decodeValue, toOption_driverFields types 0 items,
            Option.map_eq_bind]
      | _ => rfl
  | userType fields =>
      cases type with
      | userType types =>
          simp [driverValue, decodeValue, toOption_driverFieldsByName types fields,
            Option.map_eq_bind]
      | _ => rfl

theorem toOption_driverValues (valueType : CassType) (items : List CassItem) :
    (driverValues gmp zendHash valueType items).toOption =
      decodeValues gmp zendHash valueType items := by
  cases items with
  | nil => rfl
  | cons item items =>
      simp [driverValues, decodeValues, toOption_driverValue valueType item,
        toOption_driverValues valueType items]

/-- The order of decoding and adding makes no difference to a success. -/
theorem toOption_driverElements (valueType : CassType) (set : PhpSet) (items : List CassItem) :
    (driverElements gmp zendHash valueType set items).toOption =
      (decodeValues gmp zendHash valueType items).bind (addValues zendHash set) := by
  cases items with
  | nil => rfl
  | cons item items =>
      have rest (next : PhpSet) := toOption_driverElements valueType next items
      simp only [driverElements, decodeValues, Outcome.toOption_bind, rest,
        toOption_driverValue valueType item, toOption_driverSetAdd, Option.bind_eq_bind,
        Option.bind_assoc, Option.bind_some]
      congr 1
      funext value
      rw [Option.bind_comm]
      rfl

theorem toOption_driverEntries (keyType valueType : CassType) (map : PhpMap)
    (items : List CassItem) :
    (driverEntries gmp zendHash keyType valueType map items).toOption =
      (decodeEntries gmp zendHash keyType valueType items).bind (setEntries zendHash map) := by
  match items with
  | [] => rfl
  | [_] => rfl
  | keyItem :: item :: items =>
      have rest (next : PhpMap) := toOption_driverEntries keyType valueType next items
      simp only [driverEntries, decodeEntries, Outcome.toOption_bind, rest,
        toOption_driverValue keyType keyItem, toOption_driverValue valueType item,
        toOption_driverMapSet, Option.bind_eq_bind, Option.bind_assoc, Option.bind_some]
      congr 1
      funext key
      congr 1
      funext value
      rw [Option.bind_comm]
      rfl

theorem toOption_driverFields (types : List CassType) (index : Nat) (items : List CassItem) :
    (driverFields gmp zendHash types index items).toOption =
      decodeFields gmp zendHash types index items := by
  cases items with
  | nil => simp [driverFields, decodeFields]
  | cons item items =>
      have rest (types : List CassType) := toOption_driverFields types (index + 1) items
      have first (type : CassType) := toOption_driverValue type item
      cases item with
      | null => simp [driverFields, decodeFields, rest]
      | _ =>
          cases types with
          | nil => simp [driverFields, decodeFields, Outcome.toOption]
          | cons type types => simp [driverFields, decodeFields, first, rest]

theorem toOption_driverFieldsByName (types : List (List UInt8 × CassType))
    (fields : List (List UInt8 × CassItem)) :
    (driverFieldsByName gmp zendHash types fields).toOption =
      decodeFieldsByName gmp zendHash types fields := by
  match fields with
  | [] => simp [driverFieldsByName, decodeFieldsByName]
  | (_, item) :: fields =>
      have rest (types : List (List UInt8 × CassType)) :=
        toOption_driverFieldsByName types fields
      have first (type : CassType) := toOption_driverValue type item
      cases item with
      | null => simp [driverFieldsByName, decodeFieldsByName, rest]
      | _ =>
          cases types with
          | nil => simp [driverFieldsByName, decodeFieldsByName, Outcome.toOption]
          | cons type types => simp [driverFieldsByName, decodeFieldsByName, first, rest]

end

end PhpDriver
