namespace PhpDriver.Data

/-! Objects in a growing list, each with a label that never changes. The labels play
the part of a store typing: they say what an object stands for, and the list may only
hold objects that agree with their label. -/

variable {Label Object : Type}

structure Labelled (agrees : Label → Object → Prop) (labels : List Label)
    (objects : List Object) : Prop where
  length : labels.length = objects.length
  holds : ∀ (index : Nat) (label : Label) (object : Object), labels[index]? = some label →
    objects[index]? = some object → agrees label object

theorem getElem?_of_append_left {labels more : List Label} {index : Nat} {label : Label}
    (found : labels[index]? = some label) : (labels ++ more)[index]? = some label := by
  rw [List.getElem?_append_left (List.getElem?_eq_some_iff.mp found).1]
  exact found

namespace Labelled

variable {agrees : Label → Object → Prop} {labels : List Label} {objects : List Object}

theorem nil : Labelled agrees [] [] :=
  ⟨rfl, by simp⟩

theorem object (labelled : Labelled agrees labels objects) {index : Nat} {label : Label}
    (found : labels[index]? = some label) :
    ∃ object, objects[index]? = some object ∧ agrees label object := by
  have bound := (List.getElem?_eq_some_iff.mp found).1
  rw [labelled.length] at bound
  have there : objects[index]? = some objects[index] := List.getElem?_eq_getElem bound
  exact ⟨_, there, labelled.holds _ _ _ found there⟩

theorem label (labelled : Labelled agrees labels objects) {index : Nat} {object : Object}
    (found : objects[index]? = some object) :
    ∃ label, labels[index]? = some label ∧ agrees label object := by
  have bound := (List.getElem?_eq_some_iff.mp found).1
  rw [← labelled.length] at bound
  have there : labels[index]? = some labels[index] := List.getElem?_eq_getElem bound
  exact ⟨_, there, labelled.holds _ _ _ there found⟩

theorem mono {weaker : Label → Object → Prop} (labelled : Labelled agrees labels objects)
    (weaken : ∀ label object, agrees label object → weaker label object) :
    Labelled weaker labels objects :=
  ⟨labelled.length, fun index label object labelAt objectAt =>
    weaken _ _ (labelled.holds index label object labelAt objectAt)⟩

theorem append (labelled : Labelled agrees labels objects) {label : Label} {object : Object}
    (new : agrees label object) : Labelled agrees (labels ++ [label]) (objects ++ [object]) := by
  have length := labelled.length
  refine ⟨by simp [length], ?_⟩
  intro index other otherObject labelAt objectAt
  rcases Nat.lt_or_ge index labels.length with inside | beyond
  · rw [List.getElem?_append_left (by omega)] at labelAt objectAt
    exact labelled.holds _ _ _ labelAt objectAt
  · rw [List.getElem?_append_right (by omega)] at labelAt objectAt
    obtain rfl := List.mem_singleton.mp (List.mem_of_getElem? labelAt)
    obtain rfl := List.mem_singleton.mp (List.mem_of_getElem? objectAt)
    exact new

theorem set (labelled : Labelled agrees labels objects) {index : Nat} {label : Label}
    (labelAt : labels[index]? = some label) {object : Object} (new : agrees label object) :
    Labelled agrees labels (objects.set index object) := by
  refine ⟨by rw [List.length_set, labelled.length], ?_⟩
  intro other otherLabel otherObject otherAt objectAt
  by_cases same : index = other
  · subst same
    obtain rfl := Option.some.inj (labelAt.symm.trans otherAt)
    obtain rfl : object = otherObject := by
      rw [List.getElem?_set_self'] at objectAt
      obtain ⟨_, _, equal⟩ := Option.map_eq_some_iff.mp objectAt
      exact equal
    exact new
  · rw [List.getElem?_set_ne same] at objectAt
    exact labelled.holds _ _ _ otherAt objectAt

end Labelled

end PhpDriver.Data
