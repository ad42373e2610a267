import PhpDriver.Session.Bind

namespace PhpDriver

open Data

/-! The objects of the driver that the binding of parameters makes. The driver takes what it needs
of an object that it is handed, and leaves it to the caller to free it. -/

/-- The objects that are not freed, each by its number, and whether one was used or freed that is
not there. -/
structure DriverObjects where
  made : Nat := 0
  calls : Nat := 0
  live : List Nat := []
  misused : Bool := false

namespace DriverObjects

def present (objects : DriverObjects) (handles : List Nat) : Bool :=
  handles.all objects.live.contains

def create (objects : DriverObjects) : DriverObjects :=
  { objects with made := objects.made + 1, live := objects.made :: objects.live }

def free (objects : DriverObjects) (handle : Nat) : DriverObjects :=
  { objects with
    live := objects.live.erase handle
    misused := objects.misused || !objects.present [handle] }

def hand (accepts : Nat → Bool) (objects : DriverObjects) (handles : List Nat) (item : CassItem) :
    DriverObjects × Option CassItem :=
  ({ objects with
      calls := objects.calls + 1
      misused := objects.misused || !objects.present handles },
    if accepts objects.calls then some item else none)

/-- What the encoders do with an object that was filled, or was not. A sub-object that was handed
over is not freed. -/
def append (accepts : Nat → Bool) (parent handle : Nat) (wrap : Content → CassItem) :
    DriverObjects × Option Content → DriverObjects × Option CassItem
  | (objects, some content) => objects.hand accepts [parent, handle] (wrap content)
  | (objects, none) => (objects.free handle, none)

/-- What `bind_argument_by_index` and `bind_argument_by_name` do with it. -/
def bind (accepts : Nat → Bool) (handle : Nat) (wrap : Content → CassItem) :
    DriverObjects × Option Content → DriverObjects × Option CassItem
  | (objects, some content) =>
      let (objects, bound) := objects.hand accepts [handle] (wrap content)
      (objects.free handle, bound)
  | (objects, none) => (objects.free handle, none)

end DriverObjects

variable (gmp : Gmp) (accepts : Nat → Bool)

/-! The encoders, as in `encodeValue`. Undefined behaviour is told from a call that fails. -/

mutual

def encodeTo (position : Position) (parent : Nat) (objects : DriverObjects) :
    CassType → Zval → Option (DriverObjects × Option CassItem)
  | .custom _, .null =>
      match position with
      -- `Unsupported collection type`
      | .element => some (objects, none)
      | .tupleField | .userTypeField => some (objects.hand accepts [parent] .null)
  | .custom _, _ => some (objects, none)
  | type, .null => (nullItem position type).map (objects.hand accepts [parent])
  | .scalar type, .scalar value =>
      (encodeScalar gmp position type value).map fun content =>
        objects.hand accepts [parent] (.scalar content)
  | .list _, .collection valueType values | .set _, .set valueType values =>
      (appendValuesTo objects.made objects.create valueType values).map
        (DriverObjects.append accepts parent objects.made .collection)
  | .map _ _, .map keyType valueType entries =>
      (appendEntriesTo objects.made objects.create keyType valueType entries).map
        (DriverObjects.append accepts parent objects.made .collection)
  | .tuple _, .tuple types values =>
      (setFieldsTo objects.made objects.create types (List.replicate types.length .null)
        values).map (DriverObjects.append accepts parent objects.made .tuple)
  | .userType _, .userTypeValue types values =>
      (setFieldsByNameTo objects.made objects.create types
        (types.map fun field => (field.1, .null)) values).map
          (DriverObjects.append accepts parent objects.made .userType)
  | _, _ => none

def appendValuesTo (handle : Nat) (objects : DriverObjects) (valueType : CassType) :
    List Zval → Option (DriverObjects × Option (List CassItem))
  | [] => some (objects, some [])
  | value :: values =>
      match encodeTo .element handle objects valueType value with
      | none => none
      | some (objects, none) => some (objects, none)
      | some (objects, some item) =>
          (appendValuesTo handle objects valueType values).map fun (objects, items) =>
            (objects, items.map (item :: ·))

def appendEntriesTo (handle : Nat) (objects : DriverObjects) (keyType valueType : CassType) :
    List (Zval × Zval) → Option (DriverObjects × Option (List CassItem))
  | [] => some (objects, some [])
  | (key, value) :: entries =>
      match encodeTo .element handle objects keyType key with
      | none => none
      | some (objects, none) => some (objects, none)
      | some (objects, some keyItem) =>
          match encodeTo .element handle objects valueType value with
          | none => none
          | some (objects, none) => some (objects, none)
          | some (objects, some item) =>
              (appendEntriesTo handle objects keyType valueType entries).map
                fun (objects, items) => (objects, items.map (keyItem :: item :: ·))

def setFieldsTo (handle : Nat) (objects : DriverObjects) (types : List CassType)
    (items : List CassItem) : List (Nat × Zval) → Option (DriverObjects × Option (List CassItem))
  | [] => some (objects, some items)
  | (index, value) :: values =>
      match types[index]? with
      | none => some (objects, none)
      | some type =>
          match validateObject value type with
          | .accepted =>
              match encodeTo .tupleField handle objects type value with
              | none => none
              | some (objects, none) => some (objects, none)
              | some (objects, some item) =>
                  setFieldsTo handle objects types (items.set index item) values
          | _ => some (objects, none)

def setFieldsByNameTo (handle : Nat) (objects : DriverObjects)
    (types : List (List UInt8 × CassType)) (fields : OrderedMap (List UInt8) CassItem) :
    List (List UInt8 × Zval) →
      Option (DriverObjects × Option (OrderedMap (List UInt8) CassItem))
  | [] => some (objects, some fields)
  | (_, value) :: values =>
      match OrderedMap.get types fieldName with
      | none => some (objects, none)
      | some type =>
          match validateObject value type with
          | .accepted =>
              match encodeTo .userTypeField handle objects type value with
              | none => none
              | some (objects, none) => some (objects, none)
              | some (objects, some item) =>
                  setFieldsByNameTo handle objects types
                    (OrderedMap.set fields fieldName item) values
          | _ => some (objects, none)

end

/-- `bind_argument_by_index` and `bind_argument_by_name`, as in `bindArgument`. -/
def bindArgumentTo (objects : DriverObjects) :
    Zval → Option (DriverObjects × Option CassItem)
  | .null => some (objects.hand accepts [] .null)
  | .scalar value => some (objects.hand accepts [] (.scalar (bindScalar gmp value)))
  | .set valueType values | .collection valueType values =>
      (appendValuesTo gmp accepts objects.made objects.create valueType values).map
        (DriverObjects.bind accepts objects.made .collection)
  | .map keyType valueType entries =>
      (appendEntriesTo gmp accepts objects.made objects.create keyType valueType entries).map
        (DriverObjects.bind accepts objects.made .collection)
  | .tuple types values =>
      (setFieldsTo gmp accepts objects.made objects.create types
        (List.replicate types.length .null) values).map
          (DriverObjects.bind accepts objects.made .tuple)
  | .userTypeValue types values =>
      (setFieldsByNameTo gmp accepts objects.made objects.create types
        (types.map fun field => (field.1, .null)) values).map
          (DriverObjects.bind accepts objects.made .userType)
  | .foreign => some (objects, none)

def bindArgumentsTo (objects : DriverObjects) :
    List Zval → Option (DriverObjects × Option (List CassItem))
  | [] => some (objects, some [])
  | value :: values =>
      match bindArgumentTo gmp accepts objects value with
      | none => none
      | some (objects, none) => some (objects, none)
      | some (objects, some item) =>
          (bindArgumentsTo objects values).map fun (objects, items) =>
            (objects, items.map (item :: ·))

namespace Zval

mutual

def containers : Zval → Nat
  | .null | .scalar _ | .foreign => 0
  | .collection _ values => 1 + elementContainers values
  | .set _ values => 1 + elementContainers values
  | .map _ _ entries => 1 + entryContainers entries
  | .tuple _ values => 1 + fieldContainers values
  | .userTypeValue _ values => 1 + namedContainers values

def elementContainers : List Zval → Nat
  | [] => 0
  | value :: values => containers value + elementContainers values

def entryContainers : List (Zval × Zval) → Nat
  | [] => 0
  | (key, value) :: entries => containers key + containers value + entryContainers entries

def fieldContainers : List (Nat × Zval) → Nat
  | [] => 0
  | (_, value) :: values => containers value + fieldContainers values

def namedContainers : List (List UInt8 × Zval) → Nat
  | [] => 0
  | (_, value) :: values => containers value + namedContainers values

end

def nested (value : Zval) : Nat :=
  value.containers - 1

end Zval

namespace DriverObjects

structure Sound (objects : DriverObjects) : Prop where
  used : objects.misused = false
  below : ∀ handle ∈ objects.live, handle < objects.made
  nodup : objects.live.Nodup

/-- A part of the work has left new objects, as many as are counted if it was done to its end, and
its result is the expected one unless the driver has refused something. -/
structure Leaves (before : DriverObjects) (answer : DriverObjects × Option Content)
    (count : Nat) (expected : Option Content) : Prop where
  sound : answer.1.Sound
  made : before.made ≤ answer.1.made
  left : ∃ left, answer.1.live = left ++ before.live ∧ (∀ handle ∈ left, before.made ≤ handle) ∧
    left.length ≤ count ∧ (answer.2.isSome → left.length = count)
  result : ∀ content, answer.2 = some content → expected = some content
  accepted : (∀ call, accepts call = true) → answer.2 = expected

variable {accepts} {objects : DriverObjects} {Other : Type}

theorem Sound.create (sound : objects.Sound) : objects.create.Sound where
  used := sound.used
  below := by
    rw [DriverObjects.create, List.forall_mem_cons]
    exact ⟨Nat.lt_succ_self _, fun handle member => Nat.lt_succ_of_lt (sound.below handle member)⟩
  nodup := by
    rw [DriverObjects.create, List.nodup_cons]
    exact ⟨fun member => Nat.lt_irrefl _ (sound.below _ member), sound.nodup⟩

theorem present_of_subset {handles : List Nat} (subset : handles ⊆ objects.live) :
    objects.present handles = true := by
  rw [present, List.all_eq_true]
  exact fun handle member => List.contains_iff_mem.mpr (subset member)

theorem Sound.free (sound : objects.Sound) {handle : Nat} (live : handle ∈ objects.live) :
    (objects.free handle).Sound where
  used := by
    rw [DriverObjects.free, sound.used, present_of_subset (by simpa using live)]
    rfl
  below := fun other member => sound.below other (List.mem_of_mem_erase member)
  nodup := sound.nodup.erase handle

theorem Sound.hand (sound : objects.Sound) {handles : List Nat} (subset : handles ⊆ objects.live)
    (item : CassItem) : (objects.hand accepts handles item).1.Sound where
  used := by
    rw [DriverObjects.hand, sound.used, present_of_subset subset]
    rfl
  below := sound.below
  nodup := sound.nodup

theorem Leaves.hand (sound : objects.Sound) {handles : List Nat}
    (subset : handles ⊆ objects.live) (item : CassItem) :
    Leaves accepts objects (objects.hand accepts handles item) 0 (some item) where
  sound := sound.hand subset item
  made := Nat.le_refl _
  left := ⟨[], rfl, by simp, Nat.le_refl _, fun _ => rfl⟩
  result := by
    intro content found
    rw [DriverObjects.hand] at found
    split at found
    · exact found
    · cases found
  accepted := fun all => if_pos (all _)

theorem Leaves.done (sound : objects.Sound) (content : Content) :
    Leaves accepts objects (objects, some content) 0 (some content) where
  sound := sound
  made := Nat.le_refl _
  left := ⟨[], rfl, by simp, Nat.le_refl _, fun _ => rfl⟩
  result := fun _ found => found
  accepted := fun _ => rfl

theorem Leaves.failed (sound : objects.Sound) (count : Nat) :
    @Leaves accepts Content objects (objects, none) count none where
  sound := sound
  made := Nat.le_refl _
  left := ⟨[], rfl, by simp, Nat.zero_le _, fun found => by cases found⟩
  result := fun _ found => found
  accepted := fun _ => rfl

section

variable {middle after : DriverObjects} {count more : Nat} {expected : Option Content}
  {content : Content} {following : Content → Option Other} {answer : DriverObjects × Option Other}

theorem Leaves.mem {answer : DriverObjects × Option Content}
    (leaves : Leaves accepts objects answer count expected) {handle : Nat}
    (live : handle ∈ objects.live) : handle ∈ answer.1.live := by
  obtain ⟨left, live_eq, _⟩ := leaves.left
  rw [live_eq]
  exact List.mem_append_right left live

theorem Leaves.andThen (first : Leaves accepts objects (middle, some content) count expected)
    (second : Leaves accepts middle answer more (following content)) :
    Leaves accepts objects answer (count + more) (expected.bind following) where
  sound := second.sound
  made := first.made.trans second.made
  left := by
    obtain ⟨left, live, fresh, _, length⟩ := first.left
    obtain ⟨later, liveAfter, freshAfter, most, lengthAfter⟩ := second.left
    have whole := length rfl
    refine ⟨later ++ left, by rw [liveAfter, live, List.append_assoc], ?_, ?_, fun found => ?_⟩
    · rw [List.forall_mem_append]
      exact ⟨fun handle member => first.made.trans (freshAfter handle member), fresh⟩
    · rw [List.length_append]
      omega
    · rw [List.length_append, lengthAfter found, whole, Nat.add_comm]
  result := by
    intro found same
    rw [first.result content rfl, Option.bind_some]
    exact second.result found same
  accepted := by
    intro all
    rw [← first.accepted all, Option.bind_some]
    exact second.accepted all

theorem Leaves.stop (first : Leaves accepts objects (middle, none) count expected) (more : Nat) :
    Leaves accepts objects (middle, none) (count + more) (expected.bind following) where
  sound := first.sound
  made := first.made
  left := by
    obtain ⟨left, live, fresh, most, _⟩ := first.left
    exact ⟨left, live, fresh, most.trans (Nat.le_add_right _ _), fun found => by cases found⟩
  result := fun _ found => by cases found
  accepted := fun all => by rw [← first.accepted all, Option.bind_none]

theorem Leaves.map {answer : DriverObjects × Option Content}
    (leaves : Leaves accepts objects answer count expected) (change : Content → Other) :
    Leaves accepts objects (answer.1, answer.2.map change) count
      (expected.bind fun content => some (change content)) where
  sound := leaves.sound
  made := leaves.made
  left := by simpa using leaves.left
  result := by
    intro found same
    obtain ⟨content, inner, rfl⟩ := Option.map_eq_some_iff.mp same
    rw [leaves.result content inner, Option.bind_some]
  accepted := by
    intro all
    rw [leaves.accepted all, Option.map_eq_bind]
    rfl

/-- The object that was made first lies below those that were made to fill it. -/
theorem Leaves.of_create {answer : DriverObjects × Option Content}
    (filled : Leaves accepts objects.create answer count expected) :
    ∃ left, answer.1.live = left ++ objects.made :: objects.live ∧
      answer.1.live.erase objects.made = left ++ objects.live ∧
      (∀ handle ∈ left, objects.made ≤ handle) ∧
      left.length ≤ count ∧ (answer.2.isSome → left.length = count) := by
  obtain ⟨left, live, fresh, most, length⟩ := filled.left
  have apart : objects.made ∉ left :=
    fun member => Nat.not_succ_le_self _ (fresh objects.made member)
  refine ⟨left, live, ?_, fun handle member => (Nat.le_succ _).trans (fresh handle member), most,
    length⟩
  rw [live, DriverObjects.create, List.erase_append_right _ apart, List.erase_cons_head]

theorem Leaves.append {filled : DriverObjects × Option Content} {parent : Nat}
    (parentLive : parent ∈ objects.live) (wrap : Content → CassItem)
    (leaves : Leaves accepts objects.create filled count expected) :
    Leaves accepts objects (DriverObjects.append accepts parent objects.made wrap filled)
      (1 + count) (expected.map wrap) := by
  obtain ⟨left, live, erased, fresh, most, length⟩ := leaves.of_create
  have made : objects.made ≤ filled.1.made := (Nat.le_succ _).trans leaves.made
  have itself : objects.made ∈ filled.1.live := by simp [live]
  have above : parent ∈ filled.1.live := by simp [live, parentLive]
  obtain ⟨filled, content⟩ := filled
  cases content with
  | none =>
      refine ⟨leaves.sound.free itself, made, ⟨left, erased, fresh, by omega, fun found => ?_⟩,
        fun _ found => ?_, fun all => ?_⟩
      · cases found
      · cases found
      · rw [← leaves.accepted all]
        rfl
  | some content =>
      have subset : [parent, objects.made] ⊆ filled.live := by simp [above, itself]
      have handed : Leaves accepts filled
          (filled.hand accepts [parent, objects.made] (wrap content)) 0 (some (wrap content)) :=
        .hand leaves.sound subset (wrap content)
      have whole := length rfl
      refine ⟨handed.sound, made, ⟨left ++ [objects.made], ?_, ?_, ?_, fun _ => ?_⟩, ?_, ?_⟩
      · rw [List.append_assoc, List.singleton_append]
        exact live
      · rw [List.forall_mem_append]
        exact ⟨fresh, by simp⟩
      · simp only [List.length_append, List.length_singleton]
        omega
      · simp only [List.length_append, List.length_singleton]
        omega
      · rw [leaves.result content rfl]
        exact handed.result
      · intro all
        rw [← leaves.accepted all]
        exact handed.accepted all

theorem Leaves.bind {filled : DriverObjects × Option Content} (wrap : Content → CassItem)
    (leaves : Leaves accepts objects.create filled count expected) :
    Leaves accepts objects (DriverObjects.bind accepts objects.made wrap filled) count
      (expected.map wrap) := by
  obtain ⟨left, live, erased, fresh, most, length⟩ := leaves.of_create
  have made : objects.made ≤ filled.1.made := (Nat.le_succ _).trans leaves.made
  have itself : objects.made ∈ filled.1.live := by simp [live]
  obtain ⟨filled, content⟩ := filled
  cases content with
  | none =>
      refine ⟨leaves.sound.free itself, made, ⟨left, erased, fresh, most, fun found => ?_⟩,
        fun _ found => ?_, fun all => ?_⟩
      · cases found
      · cases found
      · rw [← leaves.accepted all]
        rfl
  | some content =>
      have subset : [objects.made] ⊆ filled.live := by simpa using itself
      have handed : Leaves accepts filled (filled.hand accepts [objects.made] (wrap content)) 0
          (some (wrap content)) := .hand leaves.sound subset (wrap content)
      have whole := length rfl
      refine ⟨handed.sound.free itself, made, ⟨left, erased, fresh, most, fun _ => whole⟩, ?_, ?_⟩
      · rw [leaves.result content rfl]
        exact handed.result
      · intro all
        rw [← leaves.accepted all]
        exact handed.accepted all

end

end DriverObjects

open DriverObjects

section

variable {gmp accepts}

theorem live_create (objects : DriverObjects) : objects.made ∈ objects.create.live :=
  List.mem_cons_self

mutual

theorem encodeTo_leaves : ∀ (position : Position) {parent : Nat} {objects : DriverObjects}
    (type : CassType) (value : Zval) {answer : DriverObjects × Option CassItem},
    objects.Sound → parent ∈ objects.live →
      encodeTo gmp accepts position parent objects type value = some answer →
      Leaves accepts objects answer value.containers (encodeValue gmp position type value)
  | position, parent, objects, type, .null, answer, sound, parentLive, made => by
      have subset : [parent] ⊆ objects.live := by simpa using parentLive
      cases type with
      | custom className =>
          cases position with
          | element =>
              obtain rfl := Option.some.inj made
              exact .failed sound 0
          | tupleField | userTypeField =>
              obtain rfl := Option.some.inj made
              exact .hand sound subset .null
      | scalar _ | list _ | map _ _ | set _ | tuple _ | userType _ =>
          obtain ⟨item, found, rfl⟩ := Option.map_eq_some_iff.mp made
          rw [encodeValue, found]
          exact .hand sound subset item
  | position, parent, objects, type, .scalar value, answer, sound, parentLive, made => by
      have subset : [parent] ⊆ objects.live := by simpa using parentLive
      cases type with
      | custom className =>
          obtain rfl := Option.some.inj made
          exact .failed sound 0
      | scalar type =>
          obtain ⟨content, found, rfl⟩ := Option.map_eq_some_iff.mp made
          rw [encodeValue, found, Option.map_some]
          exact .hand sound subset (.scalar content)
      | list _ | map _ _ | set _ | tuple _ | userType _ => cases made
  | position, parent, objects, type, .collection valueType values, answer, sound, parentLive,
      made => by
      cases type with
      | custom className =>
          obtain rfl := Option.some.inj made
          exact .failed sound _
      | list expected =>
          obtain ⟨filled, fills, rfl⟩ := Option.map_eq_some_iff.mp made
          exact (appendValuesTo_leaves valueType values sound.create (live_create objects)
            fills).append parentLive .collection
      | scalar _ | map _ _ | set _ | tuple _ | userType _ => cases made
  | position, parent, objects, type, .set valueType values, answer, sound, parentLive, made => by
      cases type with
      | custom className =>
          obtain rfl := Option.some.inj made
          exact .failed sound _
      | set expected =>
          obtain ⟨filled, fills, rfl⟩ := Option.map_eq_some_iff.mp made
          exact (appendValuesTo_leaves valueType values sound.create (live_create objects)
            fills).append parentLive .collection
      | scalar _ | map _ _ | list _ | tuple _ | userType _ => cases made
  | position, parent, objects, type, .map keyType valueType entries, answer, sound, parentLive,
      made => by
      cases type with
      | custom className =>
          obtain rfl := Option.some.inj made
          exact .failed sound _
      | map expectedKey expected =>
          obtain ⟨filled, fills, rfl⟩ := Option.map_eq_some_iff.mp made
          exact (appendEntriesTo_leaves keyType valueType entries sound.create
            (live_create objects) fills).append parentLive .collection
      | scalar _ | list _ | set _ | tuple _ | userType _ => cases made
  | position, parent, objects, type, .tuple types values, answer, sound, parentLive, made => by
      cases type with
      | custom className =>
          obtain rfl := Option.some.inj made
          exact .failed sound _
      | tuple expected =>
          obtain ⟨filled, fills, rfl⟩ := Option.map_eq_some_iff.mp made
          exact (setFieldsTo_leaves types _ values sound.create (live_create objects)
            fills).append parentLive .tuple
      | scalar _ | list _ | map _ _ | set _ | userType _ => cases made
  | position, parent, objects, type, .userTypeValue types values, answer, sound, parentLive,
      made => by
      cases type with
      | custom className =>
          obtain rfl := Option.some.inj made
          exact .failed sound _
      | userType expected =>
          obtain ⟨filled, fills, rfl⟩ := Option.map_eq_some_iff.mp made
          exact (setFieldsByNameTo_leaves types _ values sound.create (live_create objects)
            fills).append parentLive .userType
      | scalar _ | list _ | map _ _ | set _ | tuple _ => cases made
  | position, parent, objects, type, .foreign, answer, sound, parentLive, made => by
      cases type with
      | custom className =>
          obtain rfl := Option.some.inj made
          exact .failed sound _
      | scalar _ | list _ | map _ _ | set _ | tuple _ | userType _ => cases made

theorem appendValuesTo_leaves (valueType : CassType) : ∀ (values : List Zval) {handle : Nat}
    {objects : DriverObjects} {answer : DriverObjects × Option (List CassItem)},
    objects.Sound → handle ∈ objects.live →
      appendValuesTo gmp accepts handle objects valueType values = some answer →
      Leaves accepts objects answer (Zval.elementContainers values)
        (appendValues gmp valueType values)
  | [], handle, objects, answer, sound, _, made => by
      obtain rfl := Option.some.inj made
      exact .done sound []
  | value :: values, handle, objects, answer, sound, live, made => by
      rw [appendValuesTo] at made
      split at made
      · cases made
      · rename_i encoded
        obtain rfl := Option.some.inj made
        exact (encodeTo_leaves .element valueType value sound live encoded).stop _
      · rename_i encoded
        have first := encodeTo_leaves .element valueType value sound live encoded
        obtain ⟨⟨filled, items⟩, fills, rfl⟩ := Option.map_eq_some_iff.mp made
        have rest := appendValuesTo_leaves valueType values first.sound (first.mem live) fills
        exact first.andThen (rest.map _)

theorem appendEntriesTo_leaves (keyType valueType : CassType) : ∀ (entries : List (Zval × Zval))
    {handle : Nat} {objects : DriverObjects} {answer : DriverObjects × Option (List CassItem)},
    objects.Sound → handle ∈ objects.live →
      appendEntriesTo gmp accepts handle objects keyType valueType entries = some answer →
      Leaves accepts objects answer (Zval.entryContainers entries)
        (appendEntries gmp keyType valueType entries)
  | [], handle, objects, answer, sound, _, made => by
      obtain rfl := Option.some.inj made
      exact .done sound []
  | (key, value) :: entries, handle, objects, answer, sound, live, made => by
      rw [Zval.entryContainers, Nat.add_assoc]
      rw [appendEntriesTo] at made
      split at made
      · cases made
      · rename_i encoded
        obtain rfl := Option.some.inj made
        exact (encodeTo_leaves .element keyType key sound live encoded).stop _
      · rename_i encoded
        have first := encodeTo_leaves .element keyType key sound live encoded
        split at made
        · cases made
        · rename_i encodedValue
          obtain rfl := Option.some.inj made
          have second := encodeTo_leaves .element valueType value first.sound (first.mem live)
            encodedValue
          exact first.andThen (second.stop _)
        · rename_i encodedValue
          have second := encodeTo_leaves .element valueType value first.sound (first.mem live)
            encodedValue
          obtain ⟨⟨filled, items⟩, fills, rfl⟩ := Option.map_eq_some_iff.mp made
          have rest := appendEntriesTo_leaves keyType valueType entries second.sound
            (second.mem (first.mem live)) fills
          exact first.andThen (second.andThen (rest.map _))

theorem setFieldsTo_leaves (types : List CassType) : ∀ (items : List CassItem)
    (values : List (Nat × Zval)) {handle : Nat} {objects : DriverObjects}
    {answer : DriverObjects × Option (List CassItem)}, objects.Sound → handle ∈ objects.live →
      setFieldsTo gmp accepts handle objects types items values = some answer →
      Leaves accepts objects answer (Zval.fieldContainers values)
        (setFields gmp types items values)
  | items, [], handle, objects, answer, sound, _, made => by
      obtain rfl := Option.some.inj made
      exact .done sound items
  | items, (index, value) :: values, handle, objects, answer, sound, live, made => by
      rw [setFieldsTo] at made
      rw [setFields]
      cases found : types[index]? with
      | none =>
          rw [found] at made
          obtain rfl := Option.some.inj made
          exact .failed sound _
      | some type =>
          rw [found] at made
          rw [Option.bind_eq_bind, Option.bind_some]
          dsimp only at made
          cases accepted : validateObject value type with
          | accepted =>
              rw [accepted] at made
              dsimp only at made
              split at made
              · cases made
              · rename_i encoded
                obtain rfl := Option.some.inj made
                exact (encodeTo_leaves .tupleField type value sound live encoded).stop _
              · rename_i encoded
                have first := encodeTo_leaves .tupleField type value sound live encoded
                exact first.andThen
                  (setFieldsTo_leaves types _ values first.sound (first.mem live) made)
          | mismatched | expecting _ =>
              rw [accepted] at made
              obtain rfl := Option.some.inj made
              exact .failed sound _

theorem setFieldsByNameTo_leaves (types : List (List UInt8 × CassType)) :
    ∀ (fields : OrderedMap (List UInt8) CassItem) (values : List (List UInt8 × Zval))
      {handle : Nat} {objects : DriverObjects}
      {answer : DriverObjects × Option (OrderedMap (List UInt8) CassItem)},
      objects.Sound → handle ∈ objects.live →
      setFieldsByNameTo gmp accepts handle objects types fields values = some answer →
      Leaves accepts objects answer (Zval.namedContainers values)
        (setFieldsByName gmp types fields values)
  | fields, [], handle, objects, answer, sound, _, made => by
      obtain rfl := Option.some.inj made
      exact .done sound fields
  | fields, (name, value) :: values, handle, objects, answer, sound, live, made => by
      rw [setFieldsByNameTo] at made
      rw [setFieldsByName]
      cases found : OrderedMap.get types fieldName with
      | none =>
          rw [found] at made
          obtain rfl := Option.some.inj made
          exact .failed sound _
      | some type =>
          rw [found] at made
          rw [Option.bind_eq_bind, Option.bind_some]
          dsimp only at made
          cases accepted : validateObject value type with
          | accepted =>
              rw [accepted] at made
              dsimp only at made
              split at made
              · cases made
              · rename_i encoded
                obtain rfl := Option.some.inj made
                exact (encodeTo_leaves .userTypeField type value sound live encoded).stop _
              · rename_i encoded
                have first := encodeTo_leaves .userTypeField type value sound live encoded
                exact first.andThen
                  (setFieldsByNameTo_leaves types _ values first.sound (first.mem live) made)
          | mismatched | expecting _ =>
              rw [accepted] at made
              obtain rfl := Option.some.inj made
              exact .failed sound _

end

theorem Zval.nested_of_containers {value : Zval} {inside : Nat}
    (containers : value.containers = 1 + inside) : value.nested = inside := by
  rw [nested, containers, Nat.add_sub_cancel_left]

theorem bindArgumentTo_leaves {objects : DriverObjects} (sound : objects.Sound) {value : Zval}
    {answer : DriverObjects × Option CassItem}
    (made : bindArgumentTo gmp accepts objects value = some answer) :
    Leaves accepts objects answer value.nested (bindArgument gmp value) := by
  have nothing : [] ⊆ objects.live := List.nil_subset _
  have live := live_create objects
  cases value with
  | null =>
      obtain rfl := Option.some.inj made
      exact .hand sound nothing .null
  | scalar value =>
      obtain rfl := Option.some.inj made
      exact .hand sound nothing (.scalar (bindScalar gmp value))
  | foreign =>
      obtain rfl := Option.some.inj made
      exact .failed sound 0
  | set valueType values | collection valueType values =>
      obtain ⟨filled, fills, rfl⟩ := Option.map_eq_some_iff.mp made
      rw [@Zval.nested_of_containers _ (Zval.elementContainers values) rfl]
      exact (appendValuesTo_leaves valueType values sound.create live fills).bind .collection
  | map keyType valueType entries =>
      obtain ⟨filled, fills, rfl⟩ := Option.map_eq_some_iff.mp made
      rw [@Zval.nested_of_containers _ (Zval.entryContainers entries) rfl]
      exact (appendEntriesTo_leaves keyType valueType entries sound.create live fills).bind
        .collection
  | tuple types values =>
      obtain ⟨filled, fills, rfl⟩ := Option.map_eq_some_iff.mp made
      rw [@Zval.nested_of_containers _ (Zval.fieldContainers values) rfl]
      exact (setFieldsTo_leaves types _ values sound.create live fills).bind .tuple
  | userTypeValue types values =>
      obtain ⟨filled, fills, rfl⟩ := Option.map_eq_some_iff.mp made
      rw [@Zval.nested_of_containers _ (Zval.namedContainers values) rfl]
      exact (setFieldsByNameTo_leaves types _ values sound.create live fills).bind .userType

theorem bindArgumentsTo_leaves {values : List Zval} {objects : DriverObjects}
    (sound : objects.Sound) {answer : DriverObjects × Option (List CassItem)}
    (made : bindArgumentsTo gmp accepts objects values = some answer) :
    Leaves accepts objects answer (values.map Zval.nested).sum
      (values.mapM (bindArgument gmp)) := by
  induction values generalizing objects answer with
  | nil =>
      obtain rfl := Option.some.inj made
      exact .done sound []
  | cons value values ih =>
      rw [bindArgumentsTo] at made
      rw [List.map_cons, List.sum_cons, List.mapM_cons]
      split at made
      · cases made
      · rename_i bound
        obtain rfl := Option.some.inj made
        exact (bindArgumentTo_leaves sound bound).stop _
      · rename_i bound
        have first := bindArgumentTo_leaves sound bound
        obtain ⟨⟨filled, items⟩, fills, rfl⟩ := Option.map_eq_some_iff.mp made
        exact first.andThen ((ih first.sound fills).map _)

end

/-- Whatever the driver accepts of the parameters of a statement, no object of it is used after it
was freed or freed twice; and of those that were made for parameters that could be bound there are
left the ones for the containers inside other containers, which nobody frees. -/
theorem binding_frees_all_but_nested (gmp : Gmp) (accepts : Nat → Bool) {values : List Zval}
    {answer : DriverObjects × Option (List CassItem)}
    (bound : bindArgumentsTo gmp accepts {} values = some answer) :
    answer.1.misused = false ∧ answer.1.live.Nodup ∧
      answer.1.live.length ≤ (values.map Zval.nested).sum ∧
      (∀ items, answer.2 = some items →
        answer.1.live.length = (values.map Zval.nested).sum ∧
          values.mapM (bindArgument gmp) = some items) ∧
      ((∀ call, accepts call = true) → answer.2 = values.mapM (bindArgument gmp)) := by
  have sound : ({} : DriverObjects).Sound := ⟨rfl, by simp, .nil⟩
  have leaves := bindArgumentsTo_leaves sound bound
  obtain ⟨left, live, _, most, length⟩ := leaves.left
  rw [List.append_nil] at live
  refine ⟨leaves.sound.used, leaves.sound.nodup, live ▸ most, fun items found => ?_,
    leaves.accepted⟩
  exact ⟨live ▸ length (by rw [found]; rfl), leaves.result items found⟩

/-- A list of two lists. -/
theorem list_of_lists_leaves_two :
    ∃ objects items, bindArgumentsTo Gmp.reference (fun _ => true) {}
        [.collection (.list (.scalar .int)) [.collection (.scalar .int) [.scalar (.long 1)],
          .collection (.scalar .int) []]] = some (objects, some items) ∧
      objects.live.length = 2 := by
  have bound : ∃ objects items, bindArgumentsTo Gmp.reference (fun _ => true) {}
      [.collection (.list (.scalar .int)) [.collection (.scalar .int) [.scalar (.long 1)],
        .collection (.scalar .int) []]] = some (objects, some items) := ⟨_, _, rfl⟩
  obtain ⟨objects, items, bound⟩ := bound
  have leaves := binding_frees_all_but_nested Gmp.reference (fun _ => true) bound
  exact ⟨objects, items, bound, (leaves.2.2.2.1 items rfl).1⟩

end PhpDriver
