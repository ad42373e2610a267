import PhpDriver.Util.Validate

namespace PhpDriver

open Data

/-! The `UserTypeValue` objects of `UserTypeValue.c`. A name that was not set has no
value. -/

structure PhpUserTypeValue where
  types : OrderedMap (List UInt8) CassType
  values : OrderedMap (List UInt8) Zval := []
  dirty : Bool := true

namespace PhpUserTypeValue

/-- `php_driver_user_type_value_set`. -/
def update (userTypeValue : PhpUserTypeValue) (name : List UInt8) (object : Zval) :
    PhpUserTypeValue :=
  { userTypeValue with values := userTypeValue.values.set name object, dirty := true }

/-- `UserTypeValue::set`. A value of another type may be refused in silence. -/
def set (userTypeValue : PhpUserTypeValue) (name : List UInt8) (value : Zval) :
    PhpUserTypeValue × Option Thrown :=
  match userTypeValue.types.get name with
  | none => (userTypeValue, some (.invalidName name))
  | some type =>
      match validateObject value type with
      | .accepted => (userTypeValue.update name value, none)
      | refused => (userTypeValue, refused.refusal.thrown)

def toZval (userTypeValue : PhpUserTypeValue) : Zval :=
  .userTypeValue userTypeValue.types userTypeValue.values

end PhpUserTypeValue

structure UserTypeValueAction where
  name : List UInt8
  value : Zval

def userTypeValueStep (userTypeValue : PhpUserTypeValue) (action : UserTypeValueAction) :
    PhpUserTypeValue :=
  (userTypeValue.set action.name action.value).1

/-! A user type value holds values of the types of their fields only. -/

namespace PhpUserTypeValue

structure Holds (property : Zval → Prop) (userTypeValue : PhpUserTypeValue) : Prop where
  names : userTypeValue.types.keys.Nodup
  typed : FieldsTyped userTypeValue.types.get userTypeValue.values
  property : ∀ field ∈ userTypeValue.values, property field.2

namespace Holds

variable {property : Zval → Prop} {userTypeValue : PhpUserTypeValue}

theorem step (holds : Holds property userTypeValue) {action : UserTypeValueAction}
    (satisfied : property action.value) :
    Holds property (userTypeValueStep userTypeValue action) := by
  rw [userTypeValueStep, set]
  split
  · exact holds
  · rename_i type typeEq
    split
    · rename_i accepted
      refine ⟨holds.names, holds.typed.set typeEq accepted, ?_⟩
      intro field member
      rcases OrderedMap.mem_set member with rfl | old
      · exact satisfied
      · exact holds.property field old
    · exact holds

theorem run (holds : Holds property userTypeValue) {actions : List UserTypeValueAction}
    (satisfied : ∀ action ∈ actions, property action.value) :
    Holds property (actions.foldl userTypeValueStep userTypeValue) :=
  List.foldlRecOn actions userTypeValueStep holds fun _ holds action member =>
    holds.step (satisfied action member)

end Holds

end PhpUserTypeValue

end PhpDriver
