import Mathlib.Data.List.Perm.Basic
import Mathlib.Data.List.Sort
import PhpDriver.Data.LawfulOrder

namespace PhpDriver.Data

/-! Sorting by a comparison. A sort sees of its items only what the comparison answers at
their positions. It always permutes them, and orders them when the answers are a total
preorder. -/

structure ComparisonSort where
  order : (count : Nat) → (Nat → Nat → Int) → List Nat
  perm : ∀ count compare, (order count compare).Perm (List.range count)
  sorted : ∀ count compare, LawfulOn (· < count) compare →
    (order count compare).Pairwise fun first second => compare first second ≤ 0
  congr : ∀ count compare other,
    (∀ first, first < count → ∀ second, second < count →
      compare first second = other first second) →
    order count compare = order count other

variable {α β : Type}

/-- The answer at two positions. An item is not compared with itself. -/
def answerAt (compare : α → α → Int) (items : List α) (first second : Nat) : Int :=
  if first = second then 0
  else ((items[first]?).bind fun item => (items[second]?).map (compare item)).getD 0

def pick (items : List α) (positions : List Nat) : List α :=
  positions.filterMap (items[·]?)

def ComparisonSort.sort (sorting : ComparisonSort) (compare : α → α → Int)
    (items : List α) : List α :=
  pick items (sorting.order items.length (answerAt compare items))

theorem answerAt_eq {compare : α → α → Int} {items : List α} {first second : Nat}
    (apart : first ≠ second) {item other : α} (atFirst : items[first]? = some item)
    (atSecond : items[second]? = some other) :
    answerAt compare items first second = compare item other := by
  simp [answerAt, apart, atFirst, atSecond]

theorem pick_range_eq_take (items : List α) (count : Nat) :
    pick items (List.range count) = items.take count := by
  induction count with
  | zero => rfl
  | succ count ih =>
      rw [pick] at ih
      rw [pick, List.range_succ, List.filterMap_append, ih, List.take_add_one]
      cases there : items[count]? with
      | none => rw [List.filterMap_cons_none there, List.filterMap_nil, Option.toList_none]
      | some item => rw [List.filterMap_cons_some there, List.filterMap_nil, Option.toList_some]

theorem pick_perm {items : List α} {positions : List Nat}
    (all : positions.Perm (List.range items.length)) : (pick items positions).Perm items := by
  have picked := all.filterMap (items[·]?)
  have whole := pick_range_eq_take items items.length
  rw [List.take_length] at whole
  rw [pick] at whole
  rwa [whole] at picked

theorem forall₂_pick_iff {R : α → β → Prop} {first : List α} {second : List β}
    {positions : List Nat} (inFirst : ∀ position ∈ positions, position < first.length)
    (inSecond : ∀ position ∈ positions, position < second.length) :
    List.Forall₂ R (pick first positions) (pick second positions) ↔
      ∀ position ∈ positions, ∀ item other, first[position]? = some item →
        second[position]? = some other → R item other := by
  induction positions with
  | nil => simp [pick]
  | cons position positions ih =>
      rw [List.forall_mem_cons] at inFirst inSecond
      have head := List.getElem?_eq_getElem inFirst.1
      have otherHead := List.getElem?_eq_getElem inSecond.1
      have rest := ih inFirst.2 inSecond.2
      unfold pick at rest ⊢
      rw [List.filterMap_cons_some head, List.filterMap_cons_some otherHead, List.forall₂_cons,
        rest, List.forall_mem_cons, head, otherHead]
      simp

theorem forall₂_iff_getElem? {R : α → β → Prop} {first : List α} {second : List β}
    (lengths : first.length = second.length) :
    List.Forall₂ R first second ↔
      ∀ position ∈ List.range first.length, ∀ item other, first[position]? = some item →
        second[position]? = some other → R item other := by
  have whole := pick_range_eq_take first first.length
  have otherWhole := pick_range_eq_take second second.length
  rw [List.take_length] at whole otherWhole
  rw [← lengths] at otherWhole
  conv_lhs => rw [← whole, ← otherWhole]
  apply forall₂_pick_iff
  · intro position member
    exact List.mem_range.mp member
  · intro position member
    rw [← lengths]
    exact List.mem_range.mp member

/-- Lists whose items are all related are related when they have one length. -/
theorem forall₂_iff_length {R : α → β → Prop} {first : List α} {second : List β}
    (all : ∀ item ∈ first, ∀ other ∈ second, R item other) :
    List.Forall₂ R first second ↔ first.length = second.length := by
  constructor
  · exact List.Forall₂.length_eq
  · intro lengths
    induction first generalizing second with
    | nil => cases second with
      | nil => exact .nil
      | cons other others => cases lengths
    | cons item items ih => cases second with
      | nil => cases lengths
      | cons other others =>
          refine .cons (all item List.mem_cons_self other List.mem_cons_self)
            (ih ?_ (Nat.succ.inj lengths))
          intro item member other otherMember
          exact all item (List.mem_cons_of_mem _ member) other
            (List.mem_cons_of_mem _ otherMember)

theorem exists_arranged {f : α → β} {items : List α} {targets : List β}
    (perm : (items.map f).Perm targets) :
    ∃ arranged, items.Perm arranged ∧ arranged.map f = targets := by
  have composed := congrFun (congrFun (List.eq_map_comp_perm f) targets) items
  obtain ⟨arranged, same, order⟩ := composed.mpr perm.symm
  exact ⟨arranged, order.symm, same.symm⟩

namespace ComparisonSort

variable (sorting : ComparisonSort) {compare : α → α → Int} {items : List α}

theorem sort_perm (compare : α → α → Int) (items : List α) :
    (sorting.sort compare items).Perm items :=
  pick_perm (sorting.perm _ _)

theorem length_sort (compare : α → α → Int) (items : List α) :
    (sorting.sort compare items).length = items.length :=
  (sorting.sort_perm compare items).length_eq

theorem answerAt_lawful (lawful : LawfulOn (· ∈ items) compare) :
    LawfulOn (· < items.length) (answerAt compare items) := by
  apply lawful.of_related fun position item => items[position]? = some item
  · intro position inside
    exact ⟨items[position], List.getElem_mem inside, List.getElem?_eq_getElem inside⟩
  · intro first second item other atFirst atSecond
    cases decEq first second with
    | isTrue same =>
        subst same
        obtain rfl := Option.some.inj (atFirst.symm.trans atSecond)
        rw [answerAt, if_pos rfl, lawful.refl item (List.mem_of_getElem? atFirst)]
    | isFalse apart => exact answerAt_eq apart atFirst atSecond

theorem sort_pairwise (lawful : LawfulOn (· ∈ items) compare) :
    (sorting.sort compare items).Pairwise fun first second => compare first second ≤ 0 := by
  have ordered := sorting.sorted items.length _ (answerAt_lawful lawful)
  have nodup : (sorting.order items.length (answerAt compare items)).Nodup :=
    (sorting.perm _ _).nodup_iff.mpr List.nodup_range
  unfold sort pick
  rw [List.pairwise_filterMap]
  apply (ordered.and nodup).imp
  intro first second known item atFirst other atSecond
  have answer := @answerAt_eq _ compare _ _ _ known.2 _ _ atFirst atSecond
  rw [← answer]
  exact known.1

/-- A comparison that orders the items and tells what is seen of them apart leaves a single
order to be seen. -/
theorem map_sort_eq_iff {holds : α → Prop} (lawful : LawfulOn holds compare) {view : α → β}
    (separates : ∀ item other, holds item → holds other →
      compare item other = 0 → view item = view other)
    (equates : ∀ item other, holds item → holds other →
      view item = view other → compare item other = 0)
    {first second : List α} (firstHolds : ∀ item ∈ first, holds item)
    (secondHolds : ∀ item ∈ second, holds item) :
    (sorting.sort compare first).map view = (sorting.sort compare second).map view ↔
      (first.map view).Perm (second.map view) := by
  have firstPerm := (sorting.sort_perm compare first).map view
  have secondPerm := (sorting.sort_perm compare second).map view
  constructor
  · intro same
    rw [same] at firstPerm
    exact firstPerm.symm.trans secondPerm
  · intro perm
    have seen (items : List α) (known : ∀ item ∈ items, holds item) :
        ((sorting.sort compare items).map view).Pairwise fun left right =>
          ∃ item other, holds item ∧ holds other ∧ view item = left ∧ view other = right ∧
            compare item other ≤ 0 := by
      rw [List.pairwise_map]
      apply (sorting.sort_pairwise (lawful.mono known)).imp_of_mem
      intro item other inItems otherIn lower
      rw [(sorting.sort_perm compare items).mem_iff] at inItems otherIn
      exact ⟨item, other, known item inItems, known other otherIn, rfl, rfl, lower⟩
    apply List.Perm.eq_of_pairwise _ (seen first firstHolds) (seen second secondHolds)
    · exact firstPerm.trans (perm.trans secondPerm.symm)
    · intro left right _ _ lower upper
      obtain ⟨item, other, itemHolds, otherHolds, rfl, rfl, below⟩ := lower
      obtain ⟨above, under, aboveHolds, underHolds, sameAbove, sameUnder, beyond⟩ := upper
      -- the items seen as equal compare alike
      have otherAbove := lawful.trans other above under otherHolds aboveHolds underHolds
        (Int.le_of_eq (equates other above otherHolds aboveHolds sameAbove.symm)) beyond
      have back := lawful.trans other under item otherHolds underHolds itemHolds otherAbove
        (Int.le_of_eq (equates under item underHolds itemHolds sameUnder))
      have swapped := lawful.swap item other itemHolds otherHolds
      exact separates item other itemHolds otherHolds (by omega)

/-- A comparison that finds all the items equal leaves the order to their positions. -/
theorem forall₂_sort_iff {R : α → α → Prop} {first second : List α}
    (firstBlind : ∀ item ∈ first, ∀ other ∈ first, compare item other = 0)
    (secondBlind : ∀ item ∈ second, ∀ other ∈ second, compare item other = 0) :
    List.Forall₂ R (sorting.sort compare first) (sorting.sort compare second) ↔
      List.Forall₂ R first second := by
  have positions (items : List α)
      (blind : ∀ item ∈ items, ∀ other ∈ items, compare item other = 0) :
      sorting.order items.length (answerAt compare items) =
        sorting.order items.length fun _ _ => 0 := by
    apply sorting.congr
    intro first inFirst second inSecond
    cases decEq first second with
    | isTrue same => rw [answerAt, if_pos same]
    | isFalse apart =>
        rw [answerAt_eq apart (List.getElem?_eq_getElem inFirst)
          (List.getElem?_eq_getElem inSecond)]
        exact blind _ (List.getElem_mem inFirst) _ (List.getElem_mem inSecond)
  have lengthsOf : List.Forall₂ R (sorting.sort compare first) (sorting.sort compare second) →
      first.length = second.length := by
    intro alike
    have lengths := alike.length_eq
    rwa [length_sort, length_sort] at lengths
  have sameLength (lengths : first.length = second.length) :
      List.Forall₂ R (sorting.sort compare first) (sorting.sort compare second) ↔
        List.Forall₂ R first second := by
    have all := sorting.perm first.length fun _ _ => 0
    rw [sort, sort, positions first firstBlind, positions second secondBlind, ← lengths,
      forall₂_pick_iff, forall₂_iff_getElem? lengths]
    · simp only [all.mem_iff]
    · intro position member
      exact List.mem_range.mp (all.mem_iff.mp member)
    · intro position member
      rw [← lengths]
      exact List.mem_range.mp (all.mem_iff.mp member)
  constructor
  · intro alike
    exact (sameLength (lengthsOf alike)).mp alike
  · intro alike
    exact (sameLength alike.length_eq).mpr alike

end ComparisonSort

/-- Insertion of one item after the other, behind those that are not greater. -/
def ComparisonSort.insertion : ComparisonSort where
  order := fun count compare =>
    ((List.finRange count).insertionSort fun first second =>
      compare first.val second.val ≤ 0).map Fin.val
  perm := by
    intro count compare
    have sorted := List.perm_insertionSort
      (fun first second : Fin count => compare first.val second.val ≤ 0) (List.finRange count)
    have mapped := sorted.map Fin.val
    rwa [List.map_coe_finRange_eq_range] at mapped
  sorted := by
    intro count compare lawful
    have total : Std.Total fun first second : Fin count =>
        compare first.val second.val ≤ 0 :=
      ⟨fun first second => lawful.total first.isLt second.isLt⟩
    have trans : IsTrans (Fin count) fun first second =>
        compare first.val second.val ≤ 0 :=
      ⟨fun first second third => lawful.trans _ _ _ first.isLt second.isLt third.isLt⟩
    rw [List.pairwise_map]
    exact List.pairwise_insertionSort _ _
  congr := by
    intro count compare other same
    have relation : (fun first second : Fin count => compare first.val second.val ≤ 0) =
        fun first second => other first.val second.val ≤ 0 := by
      funext first second
      rw [same first.val first.isLt second.val second.isLt]
    simp only [relation]

end PhpDriver.Data
