import PhpDriver.Util.CachedHash

namespace PhpDriver

open Data

/-! A container is dirty after each change of its own, and no handler that would clear the
flag is installed. -/

variable {Leaf : Type} {leafHash : Leaf → BitVec 32} {validateLeaf : Leaf → CassType → Bool}
  {heap : ContainerHeap Leaf}

/-- The checks of the function that changes a container let the change pass. -/
def Mutation.accepted (validates : Slot Leaf → CassType → Bool) (self : Container Leaf) :
    Mutation Leaf → Bool
  | .setAdd object same =>
      match self.type, self.contents with
      | .set valueType, .set entries =>
          !object.isNull && validates object valueType && !entries.any same
      | _, _ => false
  | .setDel object same =>
      match self.type, self.contents with
      | .set valueType, .set entries => validates object valueType && entries.any same
      | _, _ => false
  | .mapSet key value _ =>
      match self.type, self.contents with
      | .map keyType valueType, .map _ =>
          !key.isNull && !value.isNull && validates key keyType && validates value valueType
      | _, _ => false
  | .mapDel key same =>
      match self.type, self.contents with
      | .map keyType _, .map entries =>
          validates key keyType && entries.any fun entry => same entry.1
      | _, _ => false
  | .collectionAdd object =>
      match self.type, self.contents with
      | .list valueType, .collection _ _ => validates object valueType
      | _, _ => false
  | .collectionDel index =>
      match self.contents with
      | .collection values _ => index ∈ values.keys
      | _ => false
  | .tupleSet index object =>
      match self.type, self.contents with
      | .tuple types, .tuple _ => types[index]?.any (validates object)
      | _, _ => false
  | .userTypeValueSet name object =>
      match self.type, self.contents with
      | .userType types, .userTypeValue _ => (OrderedMap.get types name).any (validates object)
      | _, _ => false

theorem Contents.mem_slots_map {entries : List (Slot Leaf × Slot Leaf)} {slot : Slot Leaf} :
    slot ∈ (Contents.map entries).slots ↔ ∃ entry ∈ entries, slot = entry.1 ∨ slot = entry.2 := by
  simp [Contents.slots]

theorem mem_modify {Element : Type} {elements : List Element} {index : Nat}
    {change : Element → Element} {element : Element}
    (member : element ∈ elements.modify index change) :
    element ∈ elements ∨ ∃ old ∈ elements, element = change old := by
  obtain ⟨position, found⟩ := List.mem_iff_getElem?.mp member
  rw [List.getElem?_modify] at found
  obtain ⟨old, oldFound, rfl⟩ := Option.map_eq_some_iff.mp found
  have oldMember := List.mem_of_getElem? oldFound
  split
  · exact .inr ⟨old, oldMember, rfl⟩
  · exact .inl oldMember

structure Container.Changed (validates : Slot Leaf → CassType → Bool)
    (container next : Container Leaf) : Prop where
  type : next.type = container.type
  dirty : next.dirty = true
  slots : ∀ slot ∈ next.contents.slots, slot ∈ container.contents.slots ∨
    ∃ type : CassType, type.depth < container.type.depth ∧ validates slot type = true

namespace Container

variable {validates : Slot Leaf → CassType → Bool} {self : Container Leaf}

theorem setAdd_accepted {object : Slot Leaf} {same : Slot Leaf → Bool}
    (accepted : (Mutation.setAdd object same).accepted validates self = true) :
    Changed validates self (self.setAdd validates object same) := by
  simp only [Mutation.accepted] at accepted
  split at accepted
  · rename_i valueType entries type contents
    simp only [Bool.and_eq_true, Bool.not_eq_true'] at accepted
    obtain ⟨⟨notNull, valid⟩, missing⟩ := accepted
    have added : self.setAdd validates object same =
        { self with dirty := true, contents := .set (entries ++ [object]) } := by
      simp [setAdd, type, contents, notNull, valid, missing]
    rw [added]
    refine ⟨rfl, rfl, ?_⟩
    intro slot member
    rcases List.mem_append.mp member with old | new
    · exact .inl (by rw [contents]; exact old)
    · obtain rfl := List.mem_singleton.mp new
      exact .inr ⟨valueType, by rw [type]; exact Nat.lt_succ_self _, valid⟩
  · cases accepted

theorem setDel_accepted {object : Slot Leaf} {same : Slot Leaf → Bool}
    (accepted : (Mutation.setDel object same).accepted validates self = true) :
    Changed validates self (self.setDel validates object same) := by
  simp only [Mutation.accepted] at accepted
  split at accepted
  · rename_i valueType entries type contents
    obtain ⟨valid, present⟩ := (Bool.and_eq_true _ _).mp accepted
    have removed : self.setDel validates object same =
        { self with dirty := true, contents := .set (entries.eraseP same) } := by
      simp only [setDel, type, contents, valid, present, Bool.not_true, Bool.false_eq_true,
        if_false, if_true]
    rw [removed]
    refine ⟨rfl, rfl, ?_⟩
    intro slot member
    exact .inl (by rw [contents]; exact List.mem_of_mem_eraseP member)
  · cases accepted

theorem mapSet_accepted {key value : Slot Leaf} {same : Slot Leaf → Bool}
    (accepted : (Mutation.mapSet key value same).accepted validates self = true) :
    Changed validates self (self.mapSet validates key value same) := by
  simp only [Mutation.accepted] at accepted
  split at accepted
  · rename_i keyType valueType entries type contents
    simp only [Bool.and_eq_true, Bool.not_eq_true'] at accepted
    obtain ⟨⟨⟨keyNotNull, valueNotNull⟩, validKey⟩, validValue⟩ := accepted
    simp only [mapSet, type, contents, keyNotNull, valueNotNull, validKey, validValue,
      Bool.or_self, Bool.not_true, Bool.false_eq_true, if_false]
    refine ⟨type.symm, rfl, ?_⟩
    intro slot member
    rw [contents, type]
    have deepKey : keyType.depth < (CassType.map keyType valueType).depth :=
      Nat.lt_succ_of_le (Nat.le_max_left _ _)
    have deepValue : valueType.depth < (CassType.map keyType valueType).depth :=
      Nat.lt_succ_of_le (Nat.le_max_right _ _)
    obtain ⟨entry, entryMember, member⟩ := Contents.mem_slots_map.mp member
    split at entryMember
    · rcases mem_modify entryMember with old | ⟨replaced, old, rfl⟩
      · exact .inl (Contents.mem_slots_map.mpr ⟨entry, old, member⟩)
      · rcases member with rfl | rfl
        · exact .inl (Contents.mem_slots_map.mpr ⟨replaced, old, .inl rfl⟩)
        · exact .inr ⟨valueType, deepValue, validValue⟩
    · rcases List.mem_append.mp entryMember with old | new
      · exact .inl (Contents.mem_slots_map.mpr ⟨entry, old, member⟩)
      · obtain rfl := List.mem_singleton.mp new
        rcases member with rfl | rfl
        · exact .inr ⟨keyType, deepKey, validKey⟩
        · exact .inr ⟨valueType, deepValue, validValue⟩
  · cases accepted

theorem mapDel_accepted {key : Slot Leaf} {same : Slot Leaf → Bool}
    (accepted : (Mutation.mapDel key same).accepted validates self = true) :
    Changed validates self (self.mapDel validates key same) := by
  simp only [Mutation.accepted] at accepted
  split at accepted
  · rename_i keyType valueType entries type contents
    obtain ⟨valid, present⟩ := (Bool.and_eq_true _ _).mp accepted
    have removed : self.mapDel validates key same = { self with
        dirty := true
        contents := .map (entries.eraseP fun entry => same entry.1) } := by
      simp only [mapDel, type, contents, valid, present, Bool.not_true, Bool.false_eq_true,
        if_false, if_true]
    rw [removed]
    refine ⟨rfl, rfl, ?_⟩
    intro slot member
    obtain ⟨entry, kept, member⟩ := Contents.mem_slots_map.mp member
    rw [contents]
    exact .inl (Contents.mem_slots_map.mpr ⟨entry, List.mem_of_mem_eraseP kept, member⟩)
  · cases accepted

theorem collectionAdd_accepted {object : Slot Leaf}
    (accepted : (Mutation.collectionAdd object).accepted validates self = true) :
    Changed validates self (self.collectionAdd validates object) := by
  simp only [Mutation.accepted] at accepted
  split at accepted
  · rename_i valueType values next type contents
    have added : self.collectionAdd validates object = { self with
        dirty := true
        contents := .collection (values ++ [(next, object)]) (next + 1) } := by
      simp only [collectionAdd, type, contents, accepted, Bool.not_true, Bool.false_eq_true,
        if_false]
    rw [added]
    refine ⟨rfl, rfl, ?_⟩
    intro slot member
    obtain ⟨entry, entryMember, rfl⟩ := List.mem_map.mp member
    rcases List.mem_append.mp entryMember with old | new
    · exact .inl (by rw [contents]; exact List.mem_map_of_mem old)
    · obtain rfl := List.mem_singleton.mp new
      exact .inr ⟨valueType, by rw [type]; exact Nat.lt_succ_self _, accepted⟩
  · cases accepted

theorem collectionDel_accepted {index : Nat}
    (accepted : (Mutation.collectionDel index).accepted validates self = true) :
    Changed validates self (self.collectionDel index) := by
  simp only [Mutation.accepted] at accepted
  split at accepted
  · rename_i values next contents
    have removed : self.collectionDel index = { self with
        dirty := true
        contents := .collection (values.erase index) next } := by
      simp only [collectionDel, contents, of_decide_eq_true accepted, if_true]
    rw [removed]
    refine ⟨rfl, rfl, ?_⟩
    intro slot member
    obtain ⟨entry, kept, rfl⟩ := List.mem_map.mp member
    rw [contents]
    exact .inl (List.mem_map_of_mem (List.mem_filter.mp kept).1)
  · cases accepted

theorem tupleSet_accepted {index : Nat} {object : Slot Leaf}
    (accepted : (Mutation.tupleSet index object).accepted validates self = true) :
    Changed validates self (self.tupleSet validates index object) := by
  simp only [Mutation.accepted] at accepted
  split at accepted
  · rename_i types values type contents
    obtain ⟨elementType, found, valid⟩ := (Option.any_eq_true _ _).mp accepted
    have changed : self.tupleSet validates index object = { self with
        dirty := true
        contents := .tuple (values.set index object) } := by
      simp only [tupleSet, type, contents, found, valid, Bool.not_true, Bool.false_eq_true,
        if_false]
    rw [changed]
    refine ⟨rfl, rfl, ?_⟩
    intro slot member
    obtain ⟨entry, entryMember, rfl⟩ := List.mem_map.mp member
    rcases OrderedMap.mem_set entryMember with rfl | old
    · have deeper := CassType.depth_le_depths (List.mem_of_getElem? found)
      exact .inr ⟨elementType, by rw [type, CassType.depth]; omega, valid⟩
    · exact .inl (by rw [contents]; exact List.mem_map_of_mem old)
  · cases accepted

theorem userTypeValueSet_accepted {name : List UInt8} {object : Slot Leaf}
    (accepted : (Mutation.userTypeValueSet name object).accepted validates self = true) :
    Changed validates self (self.userTypeValueSet validates name object) := by
  simp only [Mutation.accepted] at accepted
  split at accepted
  · rename_i types values type contents
    obtain ⟨fieldType, found, valid⟩ := (Option.any_eq_true _ _).mp accepted
    have changed : self.userTypeValueSet validates name object = { self with
        dirty := true
        contents := .userTypeValue (values.set name object) } := by
      simp only [userTypeValueSet, type, contents, found, valid, Bool.not_true,
        Bool.false_eq_true, if_false]
    rw [changed]
    refine ⟨rfl, rfl, ?_⟩
    intro slot member
    obtain ⟨entry, entryMember, rfl⟩ := List.mem_map.mp member
    rcases OrderedMap.mem_set entryMember with rfl | old
    · have deeper := CassType.depth_le_fieldDepths (OrderedMap.mem_of_get found)
      exact .inr ⟨fieldType, by rw [type, CassType.depth]; omega, valid⟩
    · exact .inl (by rw [contents]; exact List.mem_map_of_mem old)
  · cases accepted

theorem mutate_accepted {mutation : Mutation Leaf}
    (accepted : mutation.accepted validates self = true) :
    Changed validates self (self.mutate validates mutation) := by
  cases mutation with
  | setAdd object same => exact setAdd_accepted accepted
  | setDel object same => exact setDel_accepted accepted
  | mapSet key value same => exact mapSet_accepted accepted
  | mapDel key same => exact mapDel_accepted accepted
  | collectionAdd object => exact collectionAdd_accepted accepted
  | collectionDel index => exact collectionDel_accepted accepted
  | tupleSet index object => exact tupleSet_accepted accepted
  | userTypeValueSet name object => exact userTypeValueSet_accepted accepted

theorem mutate_refused {mutation : Mutation Leaf}
    (refused : mutation.accepted validates self = false) :
    self.mutate validates mutation = self := by
  cases mutation with
  | setAdd object same =>
      simp only [mutate, setAdd, Mutation.accepted] at refused ⊢
      split <;> simp_all
  | setDel object same =>
      simp only [mutate, setDel, Mutation.accepted] at refused ⊢
      split <;> simp_all
  | mapSet key value same =>
      simp only [mutate, mapSet, Mutation.accepted] at refused ⊢
      split <;> simp_all
  | mapDel key same =>
      simp only [mutate, mapDel, Mutation.accepted] at refused ⊢
      split
      · rename_i keyType valueType entries type contents
        simp only [type, contents, Bool.and_eq_false_iff] at refused
        rcases refused with invalid | missing
        · simp only [invalid, Bool.not_false, if_true]
        · simp only [missing, Bool.false_eq_true, if_false, ite_self]
      · rfl
  | collectionAdd object =>
      simp only [mutate, collectionAdd, Mutation.accepted] at refused ⊢
      split <;> simp_all
  | collectionDel index =>
      simp only [mutate, collectionDel, Mutation.accepted] at refused ⊢
      split <;> simp_all
  | tupleSet index object =>
      simp only [mutate, tupleSet, Mutation.accepted] at refused ⊢
      split
      · split <;> simp_all
      · rfl
  | userTypeValueSet name object =>
      simp only [mutate, userTypeValueSet, Mutation.accepted] at refused ⊢
      split
      · split <;> simp_all
      · rfl

end Container

theorem Container.Nested.changed {self next : Container Leaf}
    (nested : self.Nested heap) (change : self.Changed (validateSlot validateLeaf heap) next) :
    next.Nested heap := by
  refine ⟨by rw [change.type]; exact nested.deep, ?_⟩
  intro slot member
  rw [change.type]
  rcases change.slots slot member with old | ⟨type, deeper, valid⟩
  · exact nested.slots slot old
  · exact validateSlot_nested valid deeper

theorem WellNested.set (nested : WellNested heap) {handle : Nat} {self next : Container Leaf}
    (found : heap[handle]? = some self) (type : next.type = self.type)
    (fits : next.Nested heap) : WellNested (heap.set handle next) := by
  have types : ∀ (other : Nat) (inner : Container Leaf), heap[other]? = some inner →
      ∃ another : Container Leaf, (heap.set handle next)[other]? = some another ∧
        another.type = inner.type := by
    intro other inner there
    rw [List.getElem?_set]
    split
    · rename_i same
      subst same
      obtain rfl := Option.some.inj (found.symm.trans there)
      obtain ⟨inside, _⟩ := List.getElem?_eq_some_iff.mp found
      exact ⟨next, by simp [inside], type⟩
    · exact ⟨inner, there, rfl⟩
  intro other container there
  rw [List.getElem?_set] at there
  have old : container.Nested heap := by
    split at there
    · rename_i same
      split at there
      · obtain rfl := Option.some.inj there
        exact fits
      · cases there
    · exact nested there
  exact ⟨old.deep, fun slot member => (old.slots slot member).of_types types⟩

def CleanUntouched (heap : ContainerHeap Leaf) : Prop :=
  ∀ ⦃handle : Nat⦄ ⦃self : Container Leaf⦄, heap[handle]? = some self → self.dirty = false →
    self.contents.slots = [] ∧ self.hashv = 0

theorem CleanUntouched.set (clean : CleanUntouched heap) {handle : Nat}
    {next : Container Leaf} (dirty : next.dirty = true) :
    CleanUntouched (heap.set handle next) := by
  intro outer container found unmarked
  rw [List.getElem?_set] at found
  split at found
  · split at found
    · obtain rfl := Option.some.inj found
      rw [dirty] at unmarked
      cases unmarked
    · cases found
  · exact clean found unmarked

theorem CleanUntouched.hashesFresh (clean : CleanUntouched heap) :
    HashesFresh leafHash heap := by
  intro handle self found unmarked
  obtain ⟨empty, zero⟩ := clean found unmarked
  rw [zero]
  cases self.type.depth with
  | zero => rfl
  | succ depth =>
      rw [contentsHash, found]
      simp [empty]

theorem Container.new_spec {type : CassType} {self : Container Leaf}
    (made : Container.new type = some self) :
    self.type = type ∧ 0 < type.depth ∧ self.contents.slots = [] ∧ self.hashv = 0 := by
  cases type with
  | scalar _ => cases made
  | custom _ => cases made
  | list valueType =>
      obtain rfl := Option.some.inj made
      exact ⟨rfl, Nat.succ_pos _, rfl, rfl⟩
  | set valueType =>
      obtain rfl := Option.some.inj made
      exact ⟨rfl, Nat.succ_pos _, rfl, rfl⟩
  | map keyType valueType =>
      obtain rfl := Option.some.inj made
      exact ⟨rfl, Nat.succ_pos _, rfl, rfl⟩
  | tuple types =>
      obtain rfl := Option.some.inj made
      exact ⟨rfl, Nat.succ_pos _, rfl, rfl⟩
  | userType types =>
      obtain rfl := Option.some.inj made
      exact ⟨rfl, Nat.succ_pos _, rfl, rfl⟩

theorem getElem?_append_some {other : ContainerHeap Leaf} {handle : Nat} {self : Container Leaf}
    (found : heap[handle]? = some self) : (heap ++ other)[handle]? = some self := by
  obtain ⟨inside, _⟩ := List.getElem?_eq_some_iff.mp found
  rw [List.getElem?_append_left inside, found]

theorem getElem?_append_singleton {fresh : Container Leaf} {handle : Nat}
    {self : Container Leaf} (found : (heap ++ [fresh])[handle]? = some self) :
    heap[handle]? = some self ∨ self = fresh := by
  rw [List.getElem?_append] at found
  split at found
  · exact .inl found
  · exact .inr (List.mem_singleton.mp (List.mem_of_getElem? found))

theorem WellNested.append (nested : WellNested heap) {fresh : Container Leaf}
    (deep : 0 < fresh.type.depth) (empty : fresh.contents.slots = []) :
    WellNested (heap ++ [fresh]) := by
  intro handle self found
  rcases getElem?_append_singleton found with old | rfl
  · refine ⟨(nested old).deep, ?_⟩
    intro slot member
    apply ((nested old).slots slot member).of_types
    exact fun other inner there => ⟨inner, getElem?_append_some there, rfl⟩
  · refine ⟨deep, ?_⟩
    rw [empty]
    simp

theorem CleanUntouched.append (clean : CleanUntouched heap) {new : Container Leaf}
    (empty : new.contents.slots = []) (zero : new.hashv = 0) :
    CleanUntouched (heap ++ [new]) := by
  intro handle self found unmarked
  rcases getElem?_append_singleton found with old | rfl
  · exact clean old unmarked
  · exact ⟨empty, zero⟩

section

variable {phpVersionId : Nat} (modern : 80000 ≤ phpVersionId)

include modern

theorem Contents.hashCall_ne_installed (contents : Contents Leaf) :
    contents.valueClass.hashCall phpVersionId ≠ .installed := by
  cases contents <;>
    simp [Contents.valueClass, ValueClass.hashCall, ValueClass.fills,
      ValueClass.registration, holds_of_modern modern]

theorem containerStep_keeps {call : ContainerCall Leaf} {next : ContainerHeap Leaf}
    (nested : WellNested heap) (clean : CleanUntouched heap)
    (taken : containerStep phpVersionId leafHash validateLeaf heap call = some next) :
    WellNested next ∧ CleanUntouched next := by
  cases call with
  | new type =>
      obtain ⟨self, made, rfl⟩ := Option.map_eq_some_iff.mp taken
      obtain ⟨rfl, deep, empty, zero⟩ := Container.new_spec made
      exact ⟨nested.append deep empty, clean.append empty zero⟩
  | mutate handle mutation =>
      obtain ⟨self, found, rfl⟩ := Option.map_eq_some_iff.mp taken
      cases accepted : mutation.accepted (validateSlot validateLeaf heap) self with
      | false =>
          obtain ⟨_, rfl⟩ := List.getElem?_eq_some_iff.mp found
          rw [Container.mutate_refused accepted, List.set_getElem_self]
          exact ⟨nested, clean⟩
      | true =>
          have change := Container.mutate_accepted accepted
          exact ⟨nested.set found change.type ((nested found).changed change),
            clean.set change.dirty⟩
  | hash handle =>
      obtain ⟨self, found, taken⟩ := Option.bind_eq_some_iff.mp taken
      rw [if_neg (self.contents.hashCall_ne_installed modern)] at taken
      cases taken

theorem containers_stay_clean {calls : List (ContainerCall Leaf)} {last : ContainerHeap Leaf}
    (ran : calls.foldlM (containerStep phpVersionId leafHash validateLeaf) [] = some last) :
    WellNested last ∧ CleanUntouched last := by
  have run : Run (containerStep phpVersionId leafHash validateLeaf) (fun _ _ => True) [] calls
      last := .of_foldlM (fun _ _ _ => trivial) ran
  refine run.invariant (fun _ _ _ kept _ taken =>
    containerStep_keeps modern kept.1 kept.2 taken) ⟨?_, ?_⟩
  · intro handle self found
    cases found
  · intro handle self found
    cases found

/-- A hash that is cached is that of the contents, and so is what the hash functions, which
take a cached hash for granted, would answer. -/
theorem cached_hashes_are_fresh {calls : List (ContainerCall Leaf)} {last : ContainerHeap Leaf}
    (ran : calls.foldlM (containerStep phpVersionId leafHash validateLeaf) [] = some last) :
    HashesFresh leafHash last ∧ ∀ handle self, last[handle]? = some self →
      (containerHashValue leafHash self.type.depth last handle).1 =
        contentsHash leafHash self.type.depth last handle := by
  obtain ⟨nested, clean⟩ := containers_stay_clean modern ran
  refine ⟨clean.hashesFresh, fun handle self found => ?_⟩
  exact (containerHashValue_spec self.type.depth nested clean.hashesFresh found
    (Nat.le_refl _)).value

end

private def filledLater : List (ContainerCall (BitVec 64)) :=
  [.new (.list (.list (.scalar .bigint))), .new (.list (.scalar .bigint)),
    .mutate 0 (.collectionAdd (.object 1)), .mutate 1 (.collectionAdd (.leaf 5))]

theorem filled_later_is_fresh : ∃ heap,
    filledLater.foldlM (containerStep 80300 bigintHash
      fun _ type => typeCompare type (.scalar .bigint) == 0) [] = some heap ∧
    HashesFresh bigintHash heap ∧ ∀ handle self, heap[handle]? = some self →
      (containerHashValue bigintHash self.type.depth heap handle).1 =
        contentsHash bigintHash self.type.depth heap handle := by
  obtain ⟨heap, ran⟩ : ∃ heap, filledLater.foldlM (containerStep 80300 bigintHash
      fun _ type => typeCompare type (.scalar .bigint) == 0) [] = some heap := ⟨_, rfl⟩
  have modern : 80000 ≤ 80300 := by decide
  exact ⟨heap, ran, cached_hashes_are_fresh modern ran⟩

end PhpDriver
