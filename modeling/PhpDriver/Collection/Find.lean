import PhpDriver.Collection.Object
import PhpDriver.Util.LooseEquality

namespace PhpDriver

open Data

/-! `Collection::find`, which looks for an argument of any type. -/

section

variable (zendHash : List UInt8 → BitVec 32) (zend : Zend)

/-- The loop of `php_driver_collection_find`. -/
def findIn (object : Zval) : OrderedMap Nat Zval → Option (Option Nat)
  | [] => some none
  | (numKey, current) :: values =>
      (isEqual zendHash zend object current).bind fun compare =>
        if compare then some (some numKey) else findIn object values

def collectionFind (collection : PhpCollection) (object : Zval) : Option (Option Nat) :=
  findIn zendHash zend object collection.values

end

/-- A new collection, one made by its type or one of a row, which `php_driver_value` fills,
and what additions and removals make of it. -/
inductive CollectionReached (valueType : CassType) : PhpCollection → Prop
  | construct : CollectionReached valueType { valueType }
  | create (objects : List Zval) :
      CollectionReached valueType (PhpCollection.create { valueType } objects).1
  | delivered {elements : List Zval} (known : .foreign ∉ elements) :
      CollectionReached valueType (elements.foldl collectionAdd { valueType })
  | step {collection : PhpCollection} (reached : CollectionReached valueType collection)
      (action : CollectionAction) : CollectionReached valueType (collectionStep collection action)

structure LeastSame (values : OrderedMap Nat Zval) (object : Zval) (index : Nat) : Prop where
  same : ∃ element, (index, element) ∈ values ∧ object.Same element
  least : ∀ other element, (other, element) ∈ values → object.Same element → index ≤ other

/-- The answer of the search, which is one when the set of the elements has the value. -/
structure FindsSame (values : OrderedMap Nat Zval) (object : Zval) (result : Option Nat) :
    Prop where
  eq_some_iff : ∀ index, result = some index ↔ LeastSame values object index
  isSome_iff : result.isSome ↔ ∃ element ∈ values.values, object.Same element

/-- `==` tells right of every element up to the first that is the same value. -/
def ToldUpToFirst (zendHash : List UInt8 → BitVec 32) (zend : Zend) (object : Zval)
    (values : OrderedMap Nat Zval) : Prop :=
  ∀ before entry after, values = before ++ entry :: after →
    (∀ earlier ∈ before, ¬ object.Same earlier.2) → Tells zendHash zend object entry.2

/-! The indexes increase, and no element is a value the driver does not make. -/

structure PhpCollection.Numbered (collection : PhpCollection) : Prop where
  increasing : collection.values.keys.Pairwise (· < ·)
  indexed : collection.Indexed
  known : .foreign ∉ collection.values.values

namespace PhpCollection.Numbered

variable {collection : PhpCollection}

theorem empty (valueType : CassType) : Numbered { valueType } where
  increasing := .nil
  indexed := .empty valueType
  known := by simp [OrderedMap.values]

theorem collectionAdd (numbered : collection.Numbered) {object : Zval}
    (known : object ≠ .foreign) : (collectionAdd collection object).Numbered where
  increasing := by
    simp only [PhpDriver.collectionAdd, OrderedMap.keys, List.map_append, List.map_cons,
      List.map_nil, List.pairwise_append, List.pairwise_singleton, List.mem_singleton]
    refine ⟨numbered.increasing, trivial, ?_⟩
    rintro index member _ rfl
    exact numbered.indexed index member
  indexed := numbered.indexed.collectionAdd object
  known := by
    simp only [PhpDriver.collectionAdd, OrderedMap.values, List.map_append, List.map_cons,
      List.map_nil, List.mem_append, List.mem_singleton, not_or]
    exact ⟨numbered.known, known.symm⟩

theorem collectionAdds (numbered : collection.Numbered) {objects : List Zval}
    (known : .foreign ∉ objects) : (objects.foldl PhpDriver.collectionAdd collection).Numbered := by
  induction objects generalizing collection with
  | nil => exact numbered
  | cons object objects ih =>
      rw [List.mem_cons, not_or] at known
      exact ih (numbered.collectionAdd (Ne.symm known.1)) known.2

theorem collectionDel (numbered : collection.Numbered) (index : Nat) :
    (collectionDel collection index).1.Numbered := by
  rw [PhpDriver.collectionDel]
  split
  · have keys : (collection.values.erase index).keys.Sublist collection.values.keys :=
      List.filter_sublist.map Prod.fst
    have values : (collection.values.erase index).values.Sublist collection.values.values :=
      List.filter_sublist.map Prod.snd
    exact ⟨numbered.increasing.sublist keys,
      fun other member => numbered.indexed other (keys.subset member),
      fun member => numbered.known (values.subset member)⟩
  · exact numbered

theorem create (numbered : collection.Numbered) (objects : List Zval) :
    (collection.create objects).1.Numbered := by
  induction objects generalizing collection with
  | nil => exact numbered
  | cons object objects ih =>
      rw [PhpCollection.create]
      split
      · rename_i accepted
        apply ih
        apply numbered.collectionAdd
        rintro rfl
        exact validateObject_foreign _ accepted
      · exact numbered

theorem step (numbered : collection.Numbered) (action : CollectionAction) :
    (collectionStep collection action).Numbered := by
  cases action with
  | add objects =>
      rw [collectionStep, add]
      split
      · exact numbered
      · rename_i passed
        apply numbered.collectionAdds
        intro member
        exact validateObject_foreign _ (refusedArgument_eq_none passed _ member)
  | remove index => exact numbered.collectionDel index.toNat

end PhpCollection.Numbered

theorem CollectionReached.numbered {valueType : CassType} {collection : PhpCollection}
    (reached : CollectionReached valueType collection) : collection.Numbered := by
  induction reached with
  | construct => exact .empty valueType
  | create objects => exact (PhpCollection.Numbered.empty valueType).create objects
  | delivered known => exact (PhpCollection.Numbered.empty valueType).collectionAdds known
  | step _ action ih => exact ih.step action

/-! What the head of the values decides, and what it leaves to the rest. -/

section

variable {object element : Zval} {index : Nat} {values : OrderedMap Nat Zval}

theorem findsSame_nil_iff {result : Option Nat} :
    FindsSame [] object result ↔ result = none := by
  constructor
  · intro finds
    have absent := finds.isSome_iff
    simpa [OrderedMap.values] using absent
  · rintro rfl
    refine ⟨fun index => ?_, by simp [OrderedMap.values]⟩
    refine iff_of_false (by simp) fun least => ?_
    obtain ⟨element, member, _⟩ := least.same
    cases member

theorem leastSame_cons_of_not {other : Nat} (differ : ¬ object.Same element) :
    LeastSame ((index, element) :: values) object other ↔ LeastSame values object other := by
  constructor
  · intro least
    obtain ⟨found, member, same⟩ := least.same
    refine ⟨⟨found, ?_, same⟩, fun earlier value there =>
      least.least earlier value (List.mem_cons_of_mem _ there)⟩
    rcases List.mem_cons.mp member with head | tail
    · cases head
      exact absurd same differ
    · exact tail
  · intro least
    obtain ⟨found, member, same⟩ := least.same
    refine ⟨⟨found, List.mem_cons_of_mem _ member, same⟩, fun earlier value there alike => ?_⟩
    rcases List.mem_cons.mp there with head | tail
    · cases head
      exact absurd alike differ
    · exact least.least earlier value tail alike

theorem leastSame_cons_of_same {other : Nat} (same : object.Same element)
    (first : ∀ later ∈ values.keys, index < later) :
    LeastSame ((index, element) :: values) object other ↔ other = index := by
  constructor
  · intro least
    obtain ⟨found, member, _⟩ := least.same
    rcases List.mem_cons.mp member with head | tail
    · exact congrArg Prod.fst head
    · have later := first other (List.mem_map_of_mem tail)
      have before := least.least index element List.mem_cons_self same
      exact absurd later (Nat.not_lt_of_le before)
  · rintro rfl
    refine ⟨⟨element, List.mem_cons_self, same⟩, fun later value there _ => ?_⟩
    rcases List.mem_cons.mp there with head | tail
    · exact (congrArg Prod.fst head).ge
    · exact (first later (List.mem_map_of_mem tail)).le

theorem findsSame_cons_of_not {result : Option Nat} (differ : ¬ object.Same element) :
    FindsSame ((index, element) :: values) object result ↔ FindsSame values object result := by
  have present : (∃ value ∈ OrderedMap.values ((index, element) :: values), object.Same value) ↔
      ∃ value ∈ values.values, object.Same value := by
    simp [OrderedMap.values, differ]
  constructor
  · rintro ⟨least, isSome⟩
    exact ⟨fun other => (least other).trans (leastSame_cons_of_not differ),
      isSome.trans present⟩
  · rintro ⟨least, isSome⟩
    exact ⟨fun other => (least other).trans (leastSame_cons_of_not differ).symm,
      isSome.trans present.symm⟩

theorem findsSame_cons_of_same {result : Option Nat} (same : object.Same element)
    (first : ∀ later ∈ values.keys, index < later) :
    FindsSame ((index, element) :: values) object result ↔ result = some index := by
  constructor
  · intro finds
    exact (finds.eq_some_iff index).mpr ((leastSame_cons_of_same same first).mpr rfl)
  · rintro rfl
    refine ⟨fun other => ?_, ?_⟩
    · rw [leastSame_cons_of_same same first, Option.some.injEq, eq_comm]
    · exact iff_of_true rfl ⟨element, by simp [OrderedMap.values], same⟩

variable {zendHash : List UInt8 → BitVec 32} {zend : Zend}

theorem toldUpToFirst_nil : ToldUpToFirst zendHash zend object [] := by
  intro before entry after split
  simp at split

theorem toldUpToFirst_cons_iff :
    ToldUpToFirst zendHash zend object ((index, element) :: values) ↔
      Tells zendHash zend object element ∧
        (¬ object.Same element → ToldUpToFirst zendHash zend object values) := by
  constructor
  · intro told
    refine ⟨told [] (index, element) values rfl (by simp), fun differ => ?_⟩
    rintro before entry after rfl none
    exact told ((index, element) :: before) entry after rfl
      (List.forall_mem_cons.mpr ⟨differ, none⟩)
  · rintro ⟨tells, rest⟩ before entry after split none
    cases before with
    | nil =>
        rw [List.nil_append, List.cons.injEq] at split
        exact split.1 ▸ tells
    | cons head before =>
        rw [List.cons_append, List.cons.injEq] at split
        rw [List.forall_mem_cons, ← split.1] at none
        exact rest none.1 before entry after split.2 none.2

theorem mem_keys_of_findIn {found : Nat}
    (searched : findIn zendHash zend object values = some (some found)) :
    found ∈ values.keys := by
  induction values with
  | nil => cases searched
  | cons entry values ih =>
      obtain ⟨compare, _, rest⟩ := Option.bind_eq_some_iff.mp searched
      cases compare with
      | true =>
          obtain rfl := Option.some.inj (Option.some.inj rest)
          exact List.mem_cons_self
      | false => exact List.mem_cons_of_mem _ (ih rest)

/-- The head decides when it is found or the same value, and the rest otherwise. -/
theorem findIn_iff (increasing : values.keys.Pairwise (· < ·)) (known : .foreign ∉ values.values) :
    (∃ result, findIn zendHash zend object values = some result ∧
        FindsSame values object result) ↔ ToldUpToFirst zendHash zend object values := by
  induction values with
  | nil =>
      refine iff_of_true ⟨none, rfl, findsSame_nil_iff.mpr rfl⟩ toldUpToFirst_nil
  | cons entry values ih =>
      obtain ⟨index, element⟩ := entry
      obtain ⟨first, increasing⟩ := List.pairwise_cons.mp increasing
      rw [OrderedMap.values, List.map_cons, List.mem_cons, not_or] at known
      rw [toldUpToFirst_cons_iff]
      by_cases same : object.Same element
      · simp only [findsSame_cons_of_same same first, same, not_true_eq_false, false_implies,
          and_true]
        constructor
        · rintro ⟨_, searched, rfl⟩
          obtain ⟨compare, compared, rest⟩ := Option.bind_eq_some_iff.mp searched
          refine tells_of_isEqual (Ne.symm known.1) compared (iff_of_true ?_ same)
          cases compare with
          | true => rfl
          | false => exact absurd (first index (mem_keys_of_findIn rest)) (Nat.lt_irrefl index)
        · intro tells
          obtain ⟨equal, compared, right⟩ := tells.isEqual
          refine ⟨some index, ?_, rfl⟩
          rw [findIn, compared, Option.bind_some, right.mpr same]
          rfl
      · simp only [findsSame_cons_of_not same, same, not_false_eq_true, true_implies]
        rw [← ih increasing known.2]
        constructor
        · rintro ⟨result, searched, finds⟩
          obtain ⟨compare, compared, rest⟩ := Option.bind_eq_some_iff.mp searched
          cases compare with
          | true =>
              obtain rfl := Option.some.inj rest
              obtain ⟨_, member, _⟩ := ((finds.eq_some_iff index).mp rfl).same
              exact absurd (first index (List.mem_map_of_mem member)) (Nat.lt_irrefl index)
          | false =>
              exact ⟨tells_of_isEqual (Ne.symm known.1) compared (iff_of_false (by simp) same),
                result, rest, finds⟩
        · rintro ⟨tells, result, rest, finds⟩
          obtain ⟨equal, compared, right⟩ := tells.isEqual
          refine ⟨result, ?_, finds⟩
          rw [findIn, compared, Option.bind_some, if_neg (mt right.mp same)]
          exact rest

end

/-- A Zend which takes no string for a number and casts no object. -/
def Zend.plain : Zend where
  isNumericString _ := none
  numeric := by simp
  longToDouble _ := 0
  doubleToString _ := []
  nanEqual := false
  castObject _ _ := none
  foreignEqual _ := some false

def collectionHolding (valueType : CassType) (objects : List Zval) : PhpCollection :=
  collectionStep { valueType } (.add objects)

theorem collectionHolding_reached (valueType : CassType) (objects : List Zval) :
    CollectionReached valueType (collectionHolding valueType objects) :=
  .step .construct (.add objects)

end PhpDriver
