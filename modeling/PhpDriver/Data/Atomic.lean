import PhpDriver.Data.Run

namespace PhpDriver.Data

/-! Calls that end with or without an exception, and leave a state behind either way. -/

structure Called (State Error : Type) where
  after : State
  thrown : Option Error

namespace Called

variable {State Other Error Action : Type}

def map (embed : State → Other) (called : Called State Error) : Called Other Error where
  after := embed called.after
  thrown := called.thrown

/-- An exception leaves the state as it was, and without one it is what the call gives. -/
structure Atomic (before : State) (gives : State → Prop) (called : Called State Error) : Prop where
  thrown : called.thrown ≠ none → called.after = before
  returned : called.thrown = none → gives called.after

variable {before : State} {gives : State → Prop}

theorem atomic_thrown (error : Error) :
    Atomic before gives { after := before, thrown := some error } where
  thrown _ := rfl
  returned none := by cases none

theorem atomic_returned {after : State} (given : gives after) :
    Atomic before gives ({ after, thrown := none } : Called State Error) where
  thrown some := absurd rfl some
  returned _ := given

section

variable {embed : State → Other} {called : Called State Error} {given : Other → Prop}

theorem Atomic.map (atomic : called.Atomic before gives)
    (implies : ∀ after, gives after → given (embed after)) :
    (called.map embed).Atomic (embed before) given where
  thrown some := congrArg embed (atomic.thrown some)
  returned none := implies _ (atomic.returned none)

theorem Atomic.of_map (atomic : (called.map embed).Atomic (embed before) given)
    (injective : ∀ first second, embed first = embed second → first = second)
    (implies : ∀ after, given (embed after) → gives after) : called.Atomic before gives where
  thrown some := injective _ _ (atomic.thrown some)
  returned none := implies _ (atomic.returned none)

end

def step (call : State → Action → Option (Called State Error)) (before : State)
    (action : Action) : Option State :=
  (call before action).map after

/-- Whatever was called, the state is the first one or what one of the calls gave. -/
theorem run_gives {call : State → Action → Option (Called State Error)}
    {allowed : State → Action → Prop} {gives : Action → State → Prop}
    (atomic : ∀ state action called, allowed state action → call state action = some called →
      called.Atomic state (gives action))
    {first last : State} {actions : List Action}
    (run : Run (step call) allowed first actions last) :
    last = first ∨ ∃ action ∈ actions, gives action last := by
  induction run with
  | nil => exact Or.inl rfl
  | cons guard taken _ ih =>
      obtain ⟨called, calls, rfl⟩ := Option.map_eq_some_iff.mp taken
      have kept := atomic _ _ called guard calls
      cases ih with
      | inr given =>
          obtain ⟨action, member, given⟩ := given
          exact Or.inr ⟨action, List.mem_cons_of_mem _ member, given⟩
      | inl same =>
          cases thrown : called.thrown with
          | none =>
              refine Or.inr ⟨_, List.mem_cons_self, ?_⟩
              rw [same]
              exact kept.returned thrown
          | some error =>
              left
              rw [same]
              exact kept.thrown (by simp [thrown])

end Called

end PhpDriver.Data
