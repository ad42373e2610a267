namespace PhpDriver.Data

/-! Walks over a list whose every step may fail. -/

variable {Input Output Meaning State Action Item : Type}

/-- A walk keeps all the meanings exactly when each of its steps keeps one. -/
theorem exists_mapM_map_iff {step : Input → Option Output} {outputMeaning : Output → Meaning}
    {inputMeaning : Input → Meaning} (inputs : List Input) :
    (∃ outputs, inputs.mapM step = some outputs ∧
        outputs.map outputMeaning = inputs.map inputMeaning) ↔
      ∀ input ∈ inputs, ∃ output, step input = some output ∧
        outputMeaning output = inputMeaning input := by
  induction inputs with
  | nil => simp
  | cons input inputs ih =>
      rw [List.forall_mem_cons, ← ih]
      constructor
      · rintro ⟨outputs, taken, same⟩
        rw [List.mapM_cons, Option.bind_eq_bind, Option.bind_eq_some_iff] at taken
        obtain ⟨output, stepped, taken⟩ := taken
        rw [Option.bind_eq_bind, Option.bind_eq_some_iff] at taken
        obtain ⟨rest, walked, taken⟩ := taken
        obtain rfl := Option.some.inj taken
        obtain ⟨head, tail⟩ := List.cons.inj same
        exact ⟨⟨output, stepped, head⟩, rest, walked, tail⟩
      · rintro ⟨⟨output, stepped, head⟩, rest, walked, tail⟩
        exact ⟨output :: rest, by simp [List.mapM_cons, stepped, walked], by simp [head, tail]⟩

theorem length_eq_of_mapM {step : Input → Option Output} {inputs : List Input}
    {outputs : List Output} (taken : inputs.mapM step = some outputs) :
    outputs.length = inputs.length := by
  induction inputs generalizing outputs with
  | nil =>
      obtain rfl := Option.some.inj taken
      rfl
  | cons input inputs ih =>
      rw [List.mapM_cons, Option.bind_eq_bind, Option.bind_eq_some_iff] at taken
      obtain ⟨first, _, taken⟩ := taken
      rw [Option.bind_eq_bind, Option.bind_eq_some_iff] at taken
      obtain ⟨rest, walked, taken⟩ := taken
      obtain rfl := Option.some.inj taken
      rw [List.length_cons, List.length_cons, ih walked]

theorem exists_of_mem_mapM {step : Input → Option Output} {inputs : List Input}
    {outputs : List Output} (taken : inputs.mapM step = some outputs) :
    ∀ output ∈ outputs, ∃ input ∈ inputs, step input = some output := by
  induction inputs generalizing outputs with
  | nil =>
      obtain rfl := Option.some.inj taken
      simp
  | cons input inputs ih =>
      rw [List.mapM_cons, Option.bind_eq_bind, Option.bind_eq_some_iff] at taken
      obtain ⟨first, stepped, taken⟩ := taken
      rw [Option.bind_eq_bind, Option.bind_eq_some_iff] at taken
      obtain ⟨rest, walked, taken⟩ := taken
      obtain rfl := Option.some.inj taken
      rw [List.forall_mem_cons]
      refine ⟨⟨input, List.mem_cons_self, stepped⟩, ?_⟩
      intro output member
      obtain ⟨other, otherIn, same⟩ := ih walked output member
      exact ⟨other, List.mem_cons_of_mem _ otherIn, same⟩

/-- A walk whose steps add one item at most has added them all when their number shows it. -/
theorem eq_append_of_length {step : State → Action → Option State} {view : State → List Item}
    {item : Action → Item}
    (grows : ∀ state action next, step state action = some next →
      (view next).length ≤ (view state).length ∨ view next = view state ++ [item action])
    {actions : List Action} {first last : State}
    (taken : actions.foldlM step first = some last) :
    (view last).length ≤ (view first).length + actions.length ∧
      ((view last).length = (view first).length + actions.length →
        view last = view first ++ actions.map item) := by
  induction actions generalizing first with
  | nil =>
      obtain rfl := Option.some.inj taken
      simp
  | cons action actions ih =>
      rw [List.foldlM_cons, Option.bind_eq_bind, Option.bind_eq_some_iff] at taken
      obtain ⟨second, stepped, taken⟩ := taken
      obtain ⟨bound, equal⟩ := ih taken
      rw [List.length_cons]
      rcases grows first action second stepped with same | added
      · exact ⟨by omega, fun full => by omega⟩
      · have longer : (view second).length = (view first).length + 1 := by
          rw [added, List.length_append, List.length_singleton]
        refine ⟨by omega, fun full => ?_⟩
        rw [equal (by omega), added, List.map_cons, List.append_assoc, List.singleton_append]

end PhpDriver.Data
