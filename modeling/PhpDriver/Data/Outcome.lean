import Mathlib.Data.List.Basic

namespace PhpDriver.Data

/-! Calls that fail, succeed, or have undefined behaviour, and may leave exceptions behind. -/

inductive Outcome (Exception : Type) (Value : Type) where
  | undefined
  | failure (thrown : List Exception)
  | success (value : Value) (thrown : List Exception)

namespace Outcome

variable {Exception Value Next : Type}

def after (thrown : List Exception) : Outcome Exception Value → Outcome Exception Value
  | undefined => undefined
  | failure more => failure (thrown ++ more)
  | success value more => success value (thrown ++ more)

def bind (outcome : Outcome Exception Value) (next : Value → Outcome Exception Next) :
    Outcome Exception Next :=
  match outcome with
  | undefined => undefined
  | failure thrown => failure thrown
  | success value thrown => (next value).after thrown

instance : Monad (Outcome Exception) where
  pure value := success value []
  bind := bind

/-- A call of which only the success is defined. -/
def ofOption : Option Value → Outcome Exception Value
  | none => undefined
  | some value => success value []

def toOption : Outcome Exception Value → Option Value
  | success value _ => some value
  | _ => none

@[simp] theorem toOption_pure (value : Value) :
    (pure value : Outcome Exception Value).toOption = some value := rfl

@[simp] theorem toOption_after (thrown : List Exception) (outcome : Outcome Exception Value) :
    (outcome.after thrown).toOption = outcome.toOption := by
  cases outcome <;> rfl

@[simp] theorem toOption_bind (outcome : Outcome Exception Value)
    (next : Value → Outcome Exception Next) :
    (outcome >>= next).toOption = outcome.toOption.bind fun value => (next value).toOption := by
  cases outcome with
  | undefined | failure _ => rfl
  | success value thrown => exact toOption_after thrown (next value)

@[simp] theorem toOption_ofOption (value : Option Value) :
    (ofOption value : Outcome Exception Value).toOption = value := by
  cases value <;> rfl

/-! What ends a call before it succeeds, in the order it is met: the first one decides. -/

inductive Hazard where
  | undefined
  | failure
deriving DecidableEq

/-- The call ends with the first hazard. Without one it succeeds, with a result and
exceptions that have the property. -/
def Meets (hazards : List Hazard) (property : Value → List Exception → Prop) :
    Outcome Exception Value → Prop
  | undefined => hazards.head? = some .undefined
  | failure _ => hazards.head? = some .failure
  | success value thrown => hazards = [] ∧ property value thrown

variable {hazards more : List Hazard} {property other : Value → List Exception → Prop}
  {outcome : Outcome Exception Value}

theorem Meets.mono (meets : outcome.Meets hazards property)
    (weaker : ∀ value thrown, property value thrown → other value thrown) :
    outcome.Meets hazards other := by
  cases outcome with
  | undefined | failure _ => exact meets
  | success value thrown => exact ⟨meets.1, weaker value thrown meets.2⟩

theorem Meets.pure {value : Value} (holds : property value []) :
    (Pure.pure value : Outcome Exception Value).Meets [] property :=
  ⟨rfl, holds⟩

theorem head?_append_left {first : Hazard} (head : hazards.head? = some first) :
    (hazards ++ more).head? = some first := by
  cases hazards with
  | nil => cases head
  | cons _ _ => exact head

theorem Meets.after {thrown : List Exception}
    (meets : outcome.Meets hazards fun value more => property value (thrown ++ more)) :
    (outcome.after thrown).Meets hazards property := by
  cases outcome with
  | undefined | failure _ => exact meets
  | success value more => exact meets

theorem Meets.bind {next : Value → Outcome Exception Next}
    {final : Next → List Exception → Prop} (first : outcome.Meets hazards property)
    (rest : ∀ value thrown, property value thrown →
      (next value).Meets more fun result others => final result (thrown ++ others)) :
    (outcome >>= next).Meets (hazards ++ more) final := by
  cases outcome with
  | undefined => exact head?_append_left first
  | failure thrown => exact head?_append_left first
  | success value thrown =>
      obtain ⟨rfl, holds⟩ := first
      exact (rest value thrown holds).after

theorem Meets.map {result : Value → Next} {final : Next → List Exception → Prop}
    (first : outcome.Meets hazards property)
    (rest : ∀ value thrown, property value thrown → final (result value) thrown) :
    (outcome >>= fun value => Pure.pure (result value)).Meets hazards final := by
  have meets : (outcome >>= fun value => Pure.pure (result value)).Meets (hazards ++ []) final :=
    first.bind fun value thrown holds => by
      apply Meets.pure
      rw [List.append_nil]
      exact rest value thrown holds
  rwa [List.append_nil] at meets

end Outcome

end PhpDriver.Data
