import PhpDriver.Util.Validate

namespace PhpDriver

open Data

/-! The `Tuple` objects of `Tuple.c`. An index that was not set has no value. -/

structure PhpTuple where
  types : List CassType
  values : OrderedMap Nat Zval := []
  dirty : Bool := true

namespace PhpTuple

/-- `php_driver_tuple_set`. -/
def update (tuple : PhpTuple) (index : Nat) (object : Zval) : PhpTuple :=
  { tuple with values := tuple.values.set index object, dirty := true }

def set (tuple : PhpTuple) (index : BitVec 64) (value : Zval) : PhpTuple × Option Thrown :=
  if index.toInt < 0 ∨ tuple.types.length ≤ index.toInt then
    (tuple, some (.invalid "Index out of bounds"))
  else
    match tuple.types[index.toNat]? with
    | none => (tuple, none)
    | some type =>
        match validateObject value type with
        | .accepted => (tuple.update index.toNat value, none)
        | refused => (tuple, refused.refusal.thrown)

def toZval (tuple : PhpTuple) : Zval :=
  .tuple tuple.types tuple.values

end PhpTuple

structure TupleAction where
  index : BitVec 64
  value : Zval

def tupleStep (tuple : PhpTuple) (action : TupleAction) : PhpTuple :=
  (tuple.set action.index action.value).1

/-! A tuple holds values of the types of their fields only. -/

namespace PhpTuple

structure Holds (property : Zval → Prop) (tuple : PhpTuple) : Prop where
  typed : FieldsTyped (tuple.types[·]?) tuple.values
  property : ∀ field ∈ tuple.values, property field.2

namespace Holds

variable {property : Zval → Prop} {tuple : PhpTuple}

theorem step (holds : Holds property tuple) {action : TupleAction}
    (satisfied : property action.value) : Holds property (tupleStep tuple action) := by
  rw [tupleStep, set]
  split
  · exact holds
  · split
    · exact holds
    · rename_i type typeEq
      split
      · rename_i accepted
        refine ⟨holds.typed.set typeEq accepted, ?_⟩
        intro field member
        rcases OrderedMap.mem_set member with rfl | old
        · exact satisfied
        · exact holds.property field old
      · exact holds

theorem run (holds : Holds property tuple) {actions : List TupleAction}
    (satisfied : ∀ action ∈ actions, property action.value) :
    Holds property (actions.foldl tupleStep tuple) :=
  List.foldlRecOn actions tupleStep holds fun _ holds action member =>
    holds.step (satisfied action member)

end Holds

end PhpTuple

end PhpDriver
