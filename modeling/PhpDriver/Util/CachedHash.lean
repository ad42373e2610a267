import PhpDriver.Util.ContainerHeap

namespace PhpDriver

open Data

/-! When the hash that a container has cached is the hash of its contents. -/

namespace CassType

mutual

theorem depth_canonical : ∀ type : CassType, type.canonical.depth = type.depth
  | .scalar _ => rfl
  | .custom _ => rfl
  | .list valueType => by rw [canonical, depth, depth, depth_canonical valueType]
  | .set valueType => by rw [canonical, depth, depth, depth_canonical valueType]
  | .map keyType valueType => by
      rw [canonical, depth, depth, depth_canonical keyType, depth_canonical valueType]
  | .tuple types => by rw [canonical, depth, depth, depths_canonicals types]
  | .userType types => by rw [canonical, depth, depth, fieldDepths_canonicalFields types]

theorem depths_canonicals : ∀ types : List CassType, depths (canonicals types) = depths types
  | [] => rfl
  | type :: types => by
      rw [canonicals, depths, depths, depth_canonical type, depths_canonicals types]

theorem fieldDepths_canonicalFields : ∀ types : List (List UInt8 × CassType),
    fieldDepths (canonicalFields types) = fieldDepths types
  | [] => rfl
  | (_, type) :: types => by
      rw [canonicalFields, fieldDepths, fieldDepths, depth_canonical type,
        fieldDepths_canonicalFields types]

end

theorem depth_of_typeCompare {first second : CassType} (same : typeCompare first second = 0) :
    first.depth = second.depth := by
  rw [← depth_canonical first, (typeCompare_eq_zero_iff first second).mp same, depth_canonical]

theorem depth_le_depths {type : CassType} {types : List CassType} (member : type ∈ types) :
    type.depth ≤ depths types := by
  induction types with
  | nil => cases member
  | cons first types ih =>
      rw [depths]
      rcases List.mem_cons.mp member with rfl | member
      · exact Nat.le_max_left _ _
      · exact Nat.le_trans (ih member) (Nat.le_max_right _ _)

theorem depth_le_fieldDepths {name : List UInt8} {type : CassType}
    {types : List (List UInt8 × CassType)} (member : (name, type) ∈ types) :
    type.depth ≤ fieldDepths types := by
  induction types with
  | nil => cases member
  | cons first types ih =>
      obtain ⟨firstName, firstType⟩ := first
      rw [fieldDepths]
      rcases List.mem_cons.mp member with same | member
      · rw [(Prod.mk.inj same).2]
        exact Nat.le_max_left _ _
      · exact Nat.le_trans (ih member) (Nat.le_max_right _ _)

end CassType

variable {Leaf : Type} {leafHash : Leaf → BitVec 32} {validateLeaf : Leaf → CassType → Bool}
  {heap : ContainerHeap Leaf}

def Slot.NestedIn (heap : ContainerHeap Leaf) (slot : Slot Leaf) (depth : Nat) : Prop :=
  ∀ handle, slot = .object handle → ∃ inner, heap[handle]? = some inner ∧ inner.type.depth < depth

theorem Slot.NestedIn.of_types {slot : Slot Leaf} {depth : Nat} {other : ContainerHeap Leaf}
    (nested : slot.NestedIn heap depth)
    (types : ∀ (handle : Nat) (inner : Container Leaf), heap[handle]? = some inner →
      ∃ another : Container Leaf, other[handle]? = some another ∧ another.type = inner.type) :
    slot.NestedIn other depth := by
  intro handle object
  obtain ⟨inner, found, deeper⟩ := nested handle object
  obtain ⟨another, there, type⟩ := types handle inner found
  exact ⟨another, there, by rw [type]; exact deeper⟩

structure Container.Nested (heap : ContainerHeap Leaf) (container : Container Leaf) : Prop where
  deep : 0 < container.type.depth
  slots : ∀ slot ∈ container.contents.slots, slot.NestedIn heap container.type.depth

def WellNested (heap : ContainerHeap Leaf) : Prop :=
  ∀ ⦃handle : Nat⦄ ⦃self : Container Leaf⦄, heap[handle]? = some self → self.Nested heap

def HashesFresh (leafHash : Leaf → BitVec 32) (heap : ContainerHeap Leaf) : Prop :=
  ∀ ⦃handle : Nat⦄ ⦃self : Container Leaf⦄, heap[handle]? = some self → self.dirty = false →
    self.hashv = contentsHash leafHash self.type.depth heap handle

theorem validateSlot_nested {slot : Slot Leaf} {type : CassType} {depth : Nat}
    (valid : validateSlot validateLeaf heap slot type = true) (deeper : type.depth < depth) :
    slot.NestedIn heap depth := by
  rintro handle rfl
  rw [validateSlot] at valid
  cases found : heap[handle]? with
  | none => simp [found] at valid
  | some inner =>
      simp only [found, beq_iff_eq] at valid
      exact ⟨inner, rfl, by rw [CassType.depth_of_typeCompare valid]; exact deeper⟩

def Container.plain (self : Container Leaf) : CassType × Contents Leaf :=
  (self.type, self.contents)

theorem contentsHash_depth (nested : WellNested heap) {depth other : Nat} {handle : Nat}
    {self : Container Leaf} (found : heap[handle]? = some self)
    (enough : self.type.depth ≤ depth) (enoughOther : self.type.depth ≤ other) :
    contentsHash leafHash depth heap handle = contentsHash leafHash other heap handle := by
  induction depth generalizing other handle self with
  | zero =>
      have deep := (nested found).deep
      omega
  | succ depth ih =>
      cases other with
      | zero =>
          have deep := (nested found).deep
          omega
      | succ other =>
          rw [contentsHash, contentsHash, found]
          simp only
          congr 1
          apply List.map_congr_left
          intro slot member
          cases slot with
          | null => rfl
          | leaf value => rfl
          | object inner =>
              obtain ⟨innerSelf, innerFound, deeper⟩ := (nested found).slots _ member inner rfl
              exact ih innerFound (by omega) (by omega)

def SameContents (heap other : ContainerHeap Leaf) : Prop :=
  ∀ handle : Nat, other[handle]?.map Container.plain = heap[handle]?.map Container.plain

namespace SameContents

variable {other : ContainerHeap Leaf}

theorem refl (heap : ContainerHeap Leaf) : SameContents heap heap :=
  fun _ => rfl

theorem trans {last : ContainerHeap Leaf} (same : SameContents heap other)
    (next : SameContents other last) : SameContents heap last :=
  fun handle => (next handle).trans (same handle)

theorem contentsHash (same : SameContents heap other) (depth handle : Nat) :
    contentsHash leafHash depth other handle =
      PhpDriver.contentsHash leafHash depth heap handle := by
  induction depth generalizing handle with
  | zero => rfl
  | succ depth ih =>
      have here := same handle
      rw [PhpDriver.contentsHash, PhpDriver.contentsHash]
      cases found : heap[handle]? with
      | none =>
          rw [found, Option.map_none, Option.map_eq_none_iff] at here
          rw [here]
      | some self =>
          rw [found, Option.map_some, Option.map_eq_some_iff] at here
          obtain ⟨another, there, same⟩ := here
          rw [there]
          simp only [(Prod.mk.inj same).2]
          congr 1
          apply List.map_congr_left
          intro slot member
          cases slot with
          | null => rfl
          | leaf value => rfl
          | object inner => exact ih inner

theorem exists_plain (same : SameContents heap other) {handle : Nat} {self : Container Leaf}
    (found : heap[handle]? = some self) :
    ∃ another, other[handle]? = some another ∧ another.type = self.type ∧
      another.contents = self.contents := by
  have here := same handle
  rw [found, Option.map_some, Option.map_eq_some_iff] at here
  obtain ⟨another, there, plain⟩ := here
  exact ⟨another, there, (Prod.mk.inj plain).1, (Prod.mk.inj plain).2⟩

theorem symm (same : SameContents heap other) : SameContents other heap :=
  fun handle => (same handle).symm

theorem nestedIn (same : SameContents heap other) {slot : Slot Leaf} {depth : Nat}
    (nested : slot.NestedIn heap depth) : slot.NestedIn other depth := by
  apply nested.of_types
  intro handle inner found
  obtain ⟨another, there, type, _⟩ := same.exists_plain found
  exact ⟨another, there, type⟩

theorem wellNested (same : SameContents heap other) (nested : WellNested heap) :
    WellNested other := by
  intro handle self found
  obtain ⟨another, there, type, contents⟩ := same.symm.exists_plain found
  refine ⟨by rw [← type]; exact (nested there).deep, ?_⟩
  rw [← type, ← contents]
  exact fun slot member => same.nestedIn ((nested there).slots slot member)

end SameContents

structure Hashed (leafHash : Leaf → BitVec 32) (heap : ContainerHeap Leaf) (hash : BitVec 32)
    (result : BitVec 32 × ContainerHeap Leaf) : Prop where
  value : result.1 = hash
  contents : SameContents heap result.2
  fresh : HashesFresh leafHash result.2

def HashesObjects (leafHash : Leaf → BitVec 32) (depth : Nat)
    (hashObject : ContainerHeap Leaf → Nat → BitVec 32 × ContainerHeap Leaf) : Prop :=
  ∀ ⦃heap : ContainerHeap Leaf⦄ ⦃handle : Nat⦄ ⦃self : Container Leaf⦄, WellNested heap →
    HashesFresh leafHash heap → heap[handle]? = some self → self.type.depth ≤ depth →
    Hashed leafHash heap (contentsHash leafHash depth heap handle) (hashObject heap handle)

section

variable {depth : Nat} {hashObject : ContainerHeap Leaf → Nat → BitVec 32 × ContainerHeap Leaf}

theorem slotHash_spec (spec : HashesObjects leafHash depth hashObject) (nested : WellNested heap)
    (fresh : HashesFresh leafHash heap) {slot : Slot Leaf}
    (fits : slot.NestedIn heap (depth + 1)) :
    Hashed leafHash heap (slot.hash leafHash (contentsHash leafHash depth heap))
      (slotHash leafHash hashObject heap slot) := by
  cases slot with
  | null => exact ⟨rfl, .refl heap, fresh⟩
  | leaf value => exact ⟨rfl, .refl heap, fresh⟩
  | object handle =>
      obtain ⟨inner, found, deeper⟩ := fits handle rfl
      exact spec nested fresh found (by omega)

theorem hashSlots_spec (spec : HashesObjects leafHash depth hashObject) {slots : List (Slot Leaf)}
    (nested : WellNested heap) (fresh : HashesFresh leafHash heap)
    (fits : ∀ slot ∈ slots, slot.NestedIn heap (depth + 1)) (hashv : BitVec 32) :
    Hashed leafHash heap
      ((slots.map (Slot.hash leafHash (contentsHash leafHash depth heap))).foldl combineHash hashv)
      (hashSlots leafHash hashObject heap hashv slots) := by
  induction slots generalizing heap hashv with
  | nil => exact ⟨rfl, .refl heap, fresh⟩
  | cons slot slots ih =>
      have first := slotHash_spec spec nested fresh (fits slot List.mem_cons_self)
      cases hashed : slotHash leafHash hashObject heap slot with
      | mk hash next =>
          rw [hashed] at first
          have rest := ih (first.contents.wellNested nested) first.fresh
            (fun other member =>
              first.contents.nestedIn (fits other (List.mem_cons_of_mem slot member)))
            (combineHash hashv hash)
          have objects : contentsHash leafHash depth next = contentsHash leafHash depth heap := by
            funext handle
            exact first.contents.contentsHash depth handle
          rw [objects] at rest
          rw [hashSlots, hashed, List.map_cons, List.foldl_cons, ← first.value]
          exact ⟨rest.value, first.contents.trans rest.contents, rest.fresh⟩

end

/-- A container that is given the hash of its contents is clean. -/
theorem HashesFresh.cache (fresh : HashesFresh leafHash heap) {handle : Nat} {hashv : BitVec 32}
    (right : ∀ self, heap[handle]? = some self →
      hashv = contentsHash leafHash self.type.depth heap handle) :
    SameContents heap (heap.modify handle fun self => { self with hashv, dirty := false }) ∧
      HashesFresh leafHash
        (heap.modify handle fun self => { self with hashv, dirty := false }) := by
  have same : SameContents heap
      (heap.modify handle fun self => { self with hashv, dirty := false }) := by
    intro other
    rw [List.getElem?_modify]
    cases heap[other]? with
    | none => rfl
    | some self =>
        by_cases here : handle = other
        · simp [here, Container.plain]
        · simp [here]
  refine ⟨same, ?_⟩
  intro other self found clean
  rw [same.contentsHash]
  rw [List.getElem?_modify] at found
  cases before : heap[other]? with
  | none => simp [before] at found
  | some old =>
      by_cases here : handle = other
      · subst here
        rw [before] at found
        simp only [if_true, Option.map_eq_map, Option.map_some, Option.some.injEq] at found
        subst found
        exact right old before
      · rw [before] at found
        simp only [here, if_false, Option.map_eq_map, Option.map_some, Option.some.injEq] at found
        subst found
        exact fresh before clean

theorem containerHashValue_spec (depth : Nat) :
    HashesObjects leafHash depth (containerHashValue leafHash depth) := by
  induction depth with
  | zero =>
      intro heap handle self nested _ found enough
      have deep := (nested found).deep
      omega
  | succ depth ih =>
      intro heap handle self nested fresh found enough
      rw [containerHashValue, found]
      cases dirty : self.dirty with
      | false =>
          simp only [dirty, Bool.not_false, if_true]
          refine ⟨?_, .refl heap, fresh⟩
          show self.hashv = _
          rw [fresh found dirty, contentsHash_depth nested found (Nat.le_refl _) enough]
      | true =>
          have fits : ∀ slot ∈ self.contents.slots, slot.NestedIn heap (depth + 1) := by
            intro slot member handle object
            obtain ⟨inner, innerFound, deeper⟩ := (nested found).slots slot member handle object
            exact ⟨inner, innerFound, by omega⟩
          have looped := hashSlots_spec ih nested fresh fits 0
          cases hashed : hashSlots leafHash (containerHashValue leafHash depth) heap 0
              self.contents.slots with
          | mk hashv next =>
              rw [hashed] at looped
              have value : hashv = contentsHash leafHash (depth + 1) heap handle := by
                rw [contentsHash, found]
                exact looped.value
              have right : ∀ another, next[handle]? = some another →
                  hashv = contentsHash leafHash another.type.depth next handle := by
                intro another there
                obtain ⟨other, otherFound, type, _⟩ := looped.contents.symm.exists_plain there
                obtain rfl := Option.some.inj (found.symm.trans otherFound)
                rw [value, looped.contents.contentsHash, ← type]
                exact contentsHash_depth nested found enough (Nat.le_refl _)
              obtain ⟨same, clean⟩ := looped.fresh.cache right
              simp only [dirty, Bool.not_true, Bool.false_eq_true, if_false, hashed]
              exact ⟨value, looped.contents.trans same, clean⟩

end PhpDriver
