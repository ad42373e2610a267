namespace PhpDriver.Data

/-! Runs of a transition system all of whose steps are allowed. -/

variable {State Action Model : Type}

inductive Run (step : State → Action → Option State) (allowed : State → Action → Prop) :
    State → List Action → State → Prop
  | nil (state : State) : Run step allowed state [] state
  | cons {first second last : State} {action : Action} {rest : List Action}
      (guard : allowed first action) (taken : step first action = some second)
      (run : Run step allowed second rest last) :
      Run step allowed first (action :: rest) last

def Follows (step : State → Action → Option State) (allowed : State → Action → Prop) :
    State → List Action → Prop
  | _, [] => True
  | state, action :: rest =>
      allowed state action ∧ ∀ next, step state action = some next →
        Follows step allowed next rest

namespace Run

variable {step : State → Action → Option State} {allowed : State → Action → Prop}

theorem invariant {holds : State → Prop}
    (keeps : ∀ state action next, holds state → allowed state action →
      step state action = some next → holds next)
    {first last : State} {actions : List Action}
    (run : Run step allowed first actions last) (initial : holds first) : holds last := by
  induction run with
  | nil => exact initial
  | cons guard taken _ ih => exact ih (keeps _ _ _ initial guard taken)

theorem of_foldlM {first last : State} {actions : List Action}
    (allows : ∀ state, ∀ action ∈ actions, allowed state action)
    (taken : actions.foldlM step first = some last) : Run step allowed first actions last := by
  induction actions generalizing first with
  | nil =>
      obtain rfl := Option.some.inj taken
      exact .nil _
  | cons action rest ih =>
      rw [List.foldlM_cons, Option.bind_eq_bind, Option.bind_eq_some_iff] at taken
      obtain ⟨second, stepped, taken⟩ := taken
      exact .cons (allows _ _ List.mem_cons_self) stepped
        (ih (fun state other member => allows state other (List.mem_cons_of_mem _ member)) taken)

theorem of_checked [∀ state action, Decidable (allowed state action)] {first last : State}
    {actions : List Action}
    (taken : actions.foldlM
      (fun state action => if allowed state action then step state action else none) first =
        some last) : Run step allowed first actions last := by
  induction actions generalizing first with
  | nil =>
      obtain rfl := Option.some.inj taken
      exact .nil _
  | cons action rest ih =>
      rw [List.foldlM_cons, Option.bind_eq_bind, Option.bind_eq_some_iff] at taken
      obtain ⟨second, stepped, taken⟩ := taken
      split at stepped
      · rename_i guard
        exact .cons guard stepped (ih taken)
      · cases stepped

/-- A run of a system in which every allowed step can be taken from every good state. -/
theorem exists_of_allowed {holds : State → Prop}
    (defined : ∀ state action, holds state → allowed state action → (step state action).isSome)
    (keeps : ∀ state action next, holds state → allowed state action →
      step state action = some next → holds next)
    {first : State} {actions : List Action} (follows : Follows step allowed first actions)
    (initial : holds first) : ∃ last, Run step allowed first actions last := by
  induction actions generalizing first with
  | nil => exact ⟨first, .nil first⟩
  | cons action rest ih =>
      obtain ⟨guard, follows⟩ := follows
      obtain ⟨second, taken⟩ := Option.isSome_iff_exists.mp (defined first action initial guard)
      obtain ⟨last, run⟩ := ih (follows second taken) (keeps _ _ _ initial guard taken)
      exact ⟨last, .cons guard taken run⟩

theorem follows {first last : State} {actions : List Action}
    (run : Run step allowed first actions last) : Follows step allowed first actions := by
  induction run with
  | nil => trivial
  | cons guard taken _ ih =>
      refine ⟨guard, fun next same => ?_⟩
      rw [taken] at same
      cases same
      exact ih

theorem foldlM_eq {first last : State} {actions : List Action}
    (run : Run step allowed first actions last) : actions.foldlM step first = some last := by
  induction run with
  | nil => rfl
  | cons guard taken _ ih => rw [List.foldlM_cons, taken]; exact ih

/-- A simulation carried along the run: the model takes the same actions. -/
theorem simulates {relates : State → Model → Prop} {move : Model → Action → Model}
    (keeps : ∀ state model action next, relates state model → allowed state action →
      step state action = some next → relates next (move model action))
    {first last : State} {actions : List Action}
    (run : Run step allowed first actions last) {model : Model}
    (initial : relates first model) : relates last (actions.foldl move model) := by
  induction run generalizing model with
  | nil => exact initial
  | cons guard taken _ ih => exact ih (keeps _ _ _ _ initial guard taken)

/-- A system that can answer every allowed step can answer a whole run. -/
theorem refines {Concrete : Type} {move : Concrete → Action → Option Concrete}
    {relates : Concrete → State → Prop}
    (answers : ∀ concrete state action next, relates concrete state → allowed state action →
      step state action = some next → ∃ other, move concrete action = some other ∧
        relates other next)
    {first last : State} {actions : List Action}
    (run : Run step allowed first actions last) {concrete : Concrete}
    (initial : relates concrete first) :
    ∃ other, actions.foldlM move concrete = some other ∧ relates other last := by
  induction run generalizing concrete with
  | nil => exact ⟨concrete, rfl, initial⟩
  | cons guard taken _ ih =>
      obtain ⟨second, moved, related⟩ := answers _ _ _ _ initial guard taken
      obtain ⟨last, rest, related⟩ := ih related
      refine ⟨last, ?_, related⟩
      rw [List.foldlM_cons, moved, Option.bind_eq_bind, Option.bind_some, rest]

end Run

end PhpDriver.Data
