import PhpDriver.Data.Run
import PhpDriver.Util.FieldCompare

namespace PhpDriver

open Data

/-! Two tuples, or two user type values, of one type, whose fields are set by calls on either
of them in any order. -/

structure FieldObject (Object Action Types Key : Type) [DecidableEq Key] where
  types : Object → Types
  known : Types → List Key
  values : Object → OrderedMap Key Zval
  step : Object → Action → Object
  written : Object → Action → Option (Key × Zval)
  types_step : ∀ object action, types (step object action) = types object
  values_step : ∀ object action, values (step object action) =
    (written object action).elim (values object) fun field => (values object).set field.1 field.2
  written_known : ∀ object action field, written object action = some field →
    field.1 ∈ known (types object)

namespace FieldObject

variable {Object Action Types Key : Type} [DecidableEq Key]
  (fields : FieldObject Object Action Types Key) (right : Zval → Zval → Prop)

def pairStep (pair : Object × Object) : Action ⊕ Action → Option (Object × Object)
  | .inl action => some (fields.step pair.1 action, pair.2)
  | .inr action => some (pair.1, fields.step pair.2 action)

def PairAllowed (pair : Object × Object) : Action ⊕ Action → Prop
  | .inl action => ∀ field, fields.written pair.1 action = some field →
      Settable right (fields.values pair.1) (fields.values pair.2) field.1 field.2
  | .inr action => ∀ field, fields.written pair.2 action = some field →
      Settable (fun value other => right other value) (fields.values pair.2)
        (fields.values pair.1) field.1 field.2

/-- Of one type, with fields of the type only, that can be compared. -/
structure Matched (types : Types) (pair : Object × Object) : Prop where
  firstTypes : fields.types pair.1 = types
  secondTypes : fields.types pair.2 = types
  firstKnown : (fields.values pair.1).keys ⊆ fields.known types
  secondKnown : (fields.values pair.2).keys ⊆ fields.known types
  comparable : FieldsComparable right (fields.values pair.1) (fields.values pair.2)

variable {fields right}

theorem known_step {object : Object} {action : Action} {types : Types}
    (same : fields.types object = types)
    (known : (fields.values object).keys ⊆ fields.known types) :
    (fields.values (fields.step object action)).keys ⊆ fields.known types := by
  rw [fields.values_step]
  cases written : fields.written object action with
  | none => exact known
  | some field =>
      rw [Option.elim_some, OrderedMap.keys_set]
      split
      · exact known
      · refine List.append_subset.mpr ⟨known, ?_⟩
        rw [List.cons_subset]
        exact ⟨same ▸ fields.written_known object action field written, List.nil_subset _⟩

theorem comparable_step {related : Zval → Zval → Prop} {object : Object} {action : Action}
    {other : OrderedMap Key Zval}
    (comparable : FieldsComparable related (fields.values object) other)
    (allowed : ∀ field, fields.written object action = some field →
      Settable related (fields.values object) other field.1 field.2) :
    FieldsComparable related (fields.values (fields.step object action)) other := by
  rw [fields.values_step]
  cases written : fields.written object action with
  | none => exact comparable
  | some field => exact comparable.set (allowed field written)

theorem Matched.step {types : Types} {pair next : Object × Object} {action : Action ⊕ Action}
    (matched : fields.Matched right types pair) (allowed : fields.PairAllowed right pair action)
    (taken : fields.pairStep pair action = some next) : fields.Matched right types next := by
  cases action with
  | inl action =>
      obtain rfl := Option.some.inj taken
      exact {
        firstTypes := (fields.types_step pair.1 action).trans matched.firstTypes
        secondTypes := matched.secondTypes
        firstKnown := known_step matched.firstTypes matched.firstKnown
        secondKnown := matched.secondKnown
        comparable := comparable_step matched.comparable allowed }
  | inr action =>
      obtain rfl := Option.some.inj taken
      exact {
        firstTypes := matched.firstTypes
        secondTypes := (fields.types_step pair.2 action).trans matched.secondTypes
        firstKnown := matched.firstKnown
        secondKnown := known_step matched.secondTypes matched.secondKnown
        comparable := (comparable_step matched.comparable.swap allowed).swap }

theorem Matched.run {types : Types} {pair last : Object × Object}
    {actions : List (Action ⊕ Action)}
    (run : Run fields.pairStep (fields.PairAllowed right) pair actions last)
    (matched : fields.Matched right types pair) : fields.Matched right types last :=
  run.invariant (fun _ _ _ matched allowed taken => matched.step allowed taken) matched

theorem Matched.new {types : Types} {object : Object} (same : fields.types object = types)
    (empty : fields.values object = []) : fields.Matched right types (object, object) where
  firstTypes := same
  secondTypes := same
  firstKnown := by simp [empty, OrderedMap.keys]
  secondKnown := by simp [empty, OrderedMap.keys]
  comparable := by
    rw [empty]
    exact .empty

end FieldObject

namespace PhpTuple

def populate (tuple : PhpTuple) : List Zval :=
  (List.range tuple.types.length).map (fieldValue tuple.values)

def written (tuple : PhpTuple) (action : TupleAction) : Option (Nat × Zval) :=
  if action.index.toInt < 0 ∨ tuple.types.length ≤ action.index.toInt then none
  else
    tuple.types[action.index.toNat]?.bind fun type =>
      if validateObject action.value type = .accepted then
        some (action.index.toNat, action.value)
      else none

/-- `php_driver_tuple_compare` says whether the values of the fields are the same. -/
def CompareDecides (zendHash : List UInt8 → BitVec 32) (first second : PhpTuple) : Prop :=
  ∃ order, dataCompare zendHash first.toZval second.toZval = some order ∧
    (order = 0 ↔ List.Forall₂ Zval.Same first.populate second.populate)

theorem tupleStep_eq (tuple : PhpTuple) (action : TupleAction) :
    tupleStep tuple action =
      (tuple.written action).elim tuple fun field => tuple.update field.1 field.2 := by
  rw [tupleStep, set, written]
  split
  · rfl
  · cases tuple.types[action.index.toNat]? with
    | none => rfl
    | some type =>
        rw [Option.bind_some]
        cases answer : validateObject action.value type <;> simp [answer]

def fieldObject : FieldObject PhpTuple TupleAction (List CassType) Nat where
  types := PhpTuple.types
  known types := List.range types.length
  values := PhpTuple.values
  step := tupleStep
  written := written
  types_step := by
    intro tuple action
    rw [tupleStep_eq]
    cases tuple.written action <;> rfl
  values_step := by
    intro tuple action
    rw [tupleStep_eq]
    cases tuple.written action <;> rfl
  written_known := by
    intro tuple action field stored
    rw [written] at stored
    split at stored
    · cases stored
    · obtain ⟨type, at_, stored⟩ := Option.bind_eq_some_iff.mp stored
      split at stored
      · obtain rfl := Option.some.inj stored
        exact List.mem_range.mpr (List.getElem?_eq_some_iff.mp at_).1
      · cases stored

end PhpTuple

namespace PhpUserTypeValue

def populate (userTypeValue : PhpUserTypeValue) : List (List UInt8 × Zval) :=
  userTypeValue.types.keys.map fun name => (name, fieldValue userTypeValue.values name)

def written (userTypeValue : PhpUserTypeValue) (action : UserTypeValueAction) :
    Option (List UInt8 × Zval) :=
  (userTypeValue.types.get action.name).bind fun type =>
    if validateObject action.value type = .accepted then some (action.name, action.value)
    else none

/-- `php_driver_user_type_value_compare` says whether the values of the fields are the same. -/
def CompareDecides (zendHash : List UInt8 → BitVec 32) (first second : PhpUserTypeValue) : Prop :=
  ∃ order, dataCompare zendHash first.toZval second.toZval = some order ∧
    (order = 0 ↔ List.Forall₂ (fun field other => field.1 = other.1 ∧ field.2.Same other.2)
      first.populate second.populate)

theorem userTypeValueStep_eq (userTypeValue : PhpUserTypeValue) (action : UserTypeValueAction) :
    userTypeValueStep userTypeValue action =
      (userTypeValue.written action).elim userTypeValue fun field =>
        userTypeValue.update field.1 field.2 := by
  rw [userTypeValueStep, set, written]
  cases userTypeValue.types.get action.name with
  | none => rfl
  | some type =>
      rw [Option.bind_some]
      cases answer : validateObject action.value type <;> simp [answer]

def fieldObject : FieldObject PhpUserTypeValue UserTypeValueAction
    (OrderedMap (List UInt8) CassType) (List UInt8) where
  types := PhpUserTypeValue.types
  known types := types.keys
  values := PhpUserTypeValue.values
  step := userTypeValueStep
  written := written
  types_step := by
    intro userTypeValue action
    rw [userTypeValueStep_eq]
    cases userTypeValue.written action <;> rfl
  values_step := by
    intro userTypeValue action
    rw [userTypeValueStep_eq]
    cases userTypeValue.written action <;> rfl
  written_known := by
    intro userTypeValue action field stored
    obtain ⟨type, at_, stored⟩ := Option.bind_eq_some_iff.mp stored
    split at stored
    · obtain rfl := Option.some.inj stored
      exact (OrderedMap.mem_keys_iff _ _).mpr (Option.isSome_iff_exists.mpr ⟨type, at_⟩)
    · cases stored

end PhpUserTypeValue

/-! Two objects that are matched are compared rightly. -/

section

variable {zendHash : List UInt8 → BitVec 32}

theorem PhpTuple.compareDecides {types : List CassType} {first second : PhpTuple}
    (matched : fieldObject.Matched (ComparedRight zendHash) types (first, second)) :
    CompareDecides zendHash first second := by
  have firstTypes : first.types = types := matched.firstTypes
  have secondTypes : second.types = types := matched.secondTypes
  rw [CompareDecides, toZval, toZval, populate, populate, firstTypes, secondTypes,
    dataCompare_tuples rfl]
  exact (matched.comparable.mono fun _ _ right => right.decided).compareTables_tells
    matched.firstKnown matched.secondKnown

theorem PhpUserTypeValue.compareDecides {types : OrderedMap (List UInt8) CassType}
    {first second : PhpUserTypeValue}
    (matched : fieldObject.Matched (ComparedRight zendHash) types (first, second)) :
    CompareDecides zendHash first second := by
  have firstTypes : first.types = types := matched.firstTypes
  have secondTypes : second.types = types := matched.secondTypes
  have decided := (matched.comparable.mono fun _ _ right => right.decided).compareTables_tells
    matched.firstKnown matched.secondKnown
  rw [CompareDecides, toZval, toZval, populate, populate, firstTypes, secondTypes,
    dataCompare_userTypeValues rfl]
  simpa [List.forall₂_map_left_iff, List.forall₂_map_right_iff, List.forall₂_same,
    fieldObject] using decided

end

/-- Calls on two new tuples of one type, each of which may set what it sets. -/
def TuplePairRun (zendHash : List UInt8 → BitVec 32) (types : List CassType)
    (calls : List (TupleAction ⊕ TupleAction)) (first second : PhpTuple) : Prop :=
  Run PhpTuple.fieldObject.pairStep (PhpTuple.fieldObject.PairAllowed (ComparedRight zendHash))
    ({ types }, { types }) calls (first, second)

/-- Calls on two new values of one user type, each of which may set what it sets. -/
def UserTypeValuePairRun (zendHash : List UInt8 → BitVec 32)
    (types : OrderedMap (List UInt8) CassType)
    (calls : List (UserTypeValueAction ⊕ UserTypeValueAction))
    (first second : PhpUserTypeValue) : Prop :=
  Run PhpUserTypeValue.fieldObject.pairStep
    (PhpUserTypeValue.fieldObject.PairAllowed (ComparedRight zendHash))
    ({ types }, { types }) calls (first, second)

theorem Settable.first {Key : Type} [DecidableEq Key] {right : Zval → Zval → Prop} (key : Key)
    {value : Zval} (notNull : value ≠ .null) : Settable right [] [] key value where
  order := by simp [OrderedMap.set, OrderedMap.keys]
  notNull := (absurd · notNull)
  compared := by simp [OrderedMap.get]

theorem Settable.second {Key : Type} [DecidableEq Key] {right : Zval → Zval → Prop} (key : Key)
    {value other : Zval} (compared : right value other) :
    Settable right [] [(key, other)] key value where
  order := by simp [OrderedMap.set, OrderedMap.keys]
  notNull := by simp [OrderedMap.keys]
  compared := by
    intro found got
    rw [OrderedMap.get_eq_some_of_mem (by simp [OrderedMap.keys]) List.mem_cons_self] at got
    exact Option.some.inj got ▸ compared

theorem comparedRight_five (zendHash : List UInt8 → BitVec 32) :
    ComparedRight zendHash (.scalar (.long 5)) (.scalar (.long 5)) :=
  .alike ⟨rfl, rfl⟩ rfl

theorem tuplePairRun_five : TuplePairRun (fun _ => 0) [.scalar .int]
    [.inl ⟨0, .scalar (.long 5)⟩, .inr ⟨0, .scalar (.long 5)⟩]
    (tupleStep { types := [.scalar .int] } ⟨0, .scalar (.long 5)⟩)
    (tupleStep { types := [.scalar .int] } ⟨0, .scalar (.long 5)⟩) := by
  refine .cons ?_ rfl (.cons ?_ rfl (.nil _))
  · intro field stored
    obtain rfl : (0, Zval.scalar (.long 5)) = field := Option.some.inj stored
    exact .first 0 (by simp)
  · intro field stored
    obtain rfl : (0, Zval.scalar (.long 5)) = field := Option.some.inj stored
    exact .second 0 (comparedRight_five _)

theorem userTypeValuePairRun_five : UserTypeValuePairRun (fun _ => 0) [([0x61], .scalar .int)]
    [.inl ⟨[0x61], .scalar (.long 5)⟩, .inr ⟨[0x61], .scalar (.long 5)⟩]
    (userTypeValueStep { types := [([0x61], .scalar .int)] } ⟨[0x61], .scalar (.long 5)⟩)
    (userTypeValueStep { types := [([0x61], .scalar .int)] } ⟨[0x61], .scalar (.long 5)⟩) := by
  refine .cons ?_ rfl (.cons ?_ rfl (.nil _))
  · intro field stored
    obtain rfl : ([0x61], Zval.scalar (.long 5)) = field := Option.some.inj stored
    exact .first [0x61] (by simp)
  · intro field stored
    obtain rfl : ([0x61], Zval.scalar (.long 5)) = field := Option.some.inj stored
    exact .second [0x61] (comparedRight_five _)

end PhpDriver
