import Mathlib.Data.List.Basic

namespace PhpDriver.Data

/-! Machines that answer every action. -/

section

variable {State Action Response : Type}
variable (move : State → Action → State × Response)

def stateAfter (state : State) (actions : List Action) : State :=
  actions.foldl (fun state action => (move state action).1) state

def responses (state : State) : List Action → List Response
  | [] => []
  | action :: actions => (move state action).2 :: responses (move state action).1 actions

theorem stateAfter_append (state : State) (actions more : List Action) :
    stateAfter move state (actions ++ more) =
      stateAfter move (stateAfter move state actions) more :=
  List.foldl_append

theorem responses_append (state : State) (actions more : List Action) :
    responses move state (actions ++ more) =
      responses move state actions ++ responses move (stateAfter move state actions) more := by
  induction actions generalizing state with
  | nil => rfl
  | cons action actions ih =>
      rw [List.cons_append, responses, responses, ih]
      rfl

end

end PhpDriver.Data
