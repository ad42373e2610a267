import PhpDriver.Util.Iterated

namespace PhpDriver

open Data

/-! Passes over a collection whose body adds and removes elements, as `foreach` makes them. -/

inductive CollectionCall where
  | act (action : CollectionAction)
  | next
  | rewind

structure CollectionRound where
  shown : Nat × Zval
  /-- What has come into the place of an element that its round removed, and is not shown. -/
  skipped : Option (Nat × Zval)

def CollectionRound.passed (round : CollectionRound) : List (Nat × Zval) :=
  round.shown :: round.skipped.toList

/-- What the rounds went over, in order. -/
def goneOver (rounds : List CollectionRound) : List (Nat × Zval) :=
  rounds.flatMap CollectionRound.passed

namespace IteratedCollection

def act (collection : IteratedCollection) (action : CollectionAction) : IteratedCollection :=
  { collection with toPhpCollection := collectionStep collection.toPhpCollection action }

def call (collection : IteratedCollection) : CollectionCall → IteratedCollection
  | .act action => collection.act action
  | .next => collection.next
  | .rewind => collection.rewind

def round (collection : IteratedCollection) (body : List CollectionAction) :
    Option (CollectionRound × IteratedCollection) :=
  collection.currentEntry.map fun shown =>
    let after := body.foldl act collection
    let skipped := if after.values.keys.contains shown.1 then none else after.currentEntry
    ({ shown, skipped }, after.next)

/-- As many rounds as there are bodies, or less. -/
def rounds (collection : IteratedCollection) :
    List (List CollectionAction) → List CollectionRound × IteratedCollection
  | [] => ([], collection)
  | body :: bodies =>
      match collection.round body with
      | none => ([], collection)
      | some (round, next) =>
          let (others, last) := next.rounds bodies
          (round :: others, last)

/-- The elements are in the order of their indexes, and the pointer is not behind the place of
the next one. -/
structure Ordered (collection : IteratedCollection) : Prop where
  ascending : collection.values.keys.Pairwise (· < ·)
  indexed : collection.Indexed
  reached : collection.position ≤ collection.nextFreeElement

variable {collection : IteratedCollection} {entry : Nat × Zval}

theorem currentEntry_eq_none_iff :
    collection.currentEntry = none ↔ ∀ entry ∈ collection.values, entry.1 < collection.position := by
  rw [currentEntry, List.find?_eq_none]
  simp

theorem mem_of_currentEntry (current : collection.currentEntry = some entry) :
    entry ∈ collection.values ∧ collection.position ≤ entry.1 :=
  ⟨List.mem_of_find?_eq_some current, by simpa using List.find?_some current⟩

theorem mem_keys_of_mem (member : entry ∈ collection.values) :
    entry.1 ∈ collection.values.keys :=
  List.mem_map_of_mem member

namespace Ordered

theorem start (valueType : CassType) : Ordered { valueType } where
  ascending := .nil
  indexed := .empty valueType
  reached := Nat.le_refl 0

/-- The current element is the first that the pointer has not gone past. -/
theorem current_le (ordered : collection.Ordered) {current : Nat × Zval}
    (isCurrent : collection.currentEntry = some current) (member : entry ∈ collection.values)
    (ahead : collection.position ≤ entry.1) : current.1 ≤ entry.1 := by
  obtain ⟨_, before, after, split, missed⟩ := List.find?_eq_some_iff_append.mp isCurrent
  have ascending := ordered.ascending
  rw [OrderedMap.keys, split, List.map_append, List.map_cons, List.pairwise_append,
    List.pairwise_cons] at ascending
  rw [split, List.mem_append, List.mem_cons] at member
  rcases member with earlier | rfl | later
  · exact absurd ahead (by simpa using missed entry earlier)
  · exact Nat.le_refl _
  · exact Nat.le_of_lt (ascending.2.1.1 entry.1 (List.mem_map_of_mem later))

theorem eq_of_index (ordered : collection.Ordered) {other : Nat × Zval}
    (member : entry ∈ collection.values) (there : other ∈ collection.values)
    (same : entry.1 = other.1) : entry = other := by
  have nodup : collection.values.keys.Nodup := ordered.ascending.imp Nat.ne_of_lt
  exact List.inj_on_of_nodup_map nodup member there same

theorem add (ordered : collection.Ordered) (object : Zval) :
    Ordered { collection with
      toPhpCollection := collectionAdd collection.toPhpCollection object } where
  ascending := by
    have last : ∀ index ∈ collection.values.keys, index < collection.nextFreeElement :=
      ordered.indexed
    have keys : (collectionAdd collection.toPhpCollection object).values.keys =
        collection.values.keys ++ [collection.nextFreeElement] := by
      simp [collectionAdd, OrderedMap.keys]
    rw [keys, List.pairwise_append]
    exact ⟨ordered.ascending, List.pairwise_singleton _ _, by simpa using last⟩
  indexed := ordered.indexed.collectionAdd object
  reached := Nat.le_succ_of_le ordered.reached

theorem adds (ordered : collection.Ordered) (objects : List Zval) :
    Ordered { collection with
      toPhpCollection := objects.foldl collectionAdd collection.toPhpCollection } := by
  induction objects generalizing collection with
  | nil => exact ordered
  | cons object objects ih => exact ih (ordered.add object)

theorem remove (ordered : collection.Ordered) (index : Nat) :
    Ordered { collection with
      toPhpCollection := (collectionDel collection.toPhpCollection index).1 } := by
  refine ⟨?_, ordered.indexed.collectionDel index, ?_⟩
  · rw [collectionDel]
    split
    · rw [OrderedMap.keys_erase]
      exact ordered.ascending.filter _
    · exact ordered.ascending
  · rw [collectionDel]
    split <;> exact ordered.reached

theorem act (ordered : collection.Ordered) (action : CollectionAction) :
    (collection.act action).Ordered := by
  cases action with
  | add objects =>
      rw [IteratedCollection.act, collectionStep, PhpCollection.add]
      split
      · exact ordered
      · exact ordered.adds objects
  | remove index => exact ordered.remove index.toNat

theorem acts (ordered : collection.Ordered) (body : List CollectionAction) :
    (body.foldl IteratedCollection.act collection).Ordered := by
  induction body generalizing collection with
  | nil => exact ordered
  | cons action body ih => exact ih (ordered.act action)

theorem next (ordered : collection.Ordered) : collection.next.Ordered := by
  rw [IteratedCollection.next]
  split
  · rename_i index object current
    have member := mem_keys_of_mem (mem_of_currentEntry current).1
    exact ⟨ordered.ascending, ordered.indexed, ordered.indexed index member⟩
  · exact ordered

theorem rewind (ordered : collection.Ordered) : collection.rewind.Ordered :=
  ⟨ordered.ascending, ordered.indexed, Nat.zero_le _⟩

theorem calls (ordered : collection.Ordered) (calls : List CollectionCall) :
    (calls.foldl call collection).Ordered := by
  induction calls generalizing collection with
  | nil => exact ordered
  | cons call calls ih =>
      cases call with
      | act action => exact ih (ordered.act action)
      | next => exact ih ordered.next
      | rewind => exact ih ordered.rewind

end Ordered

/-- What is in a collection after a change was there or has a new index. -/
structure Grows (before after : IteratedCollection) : Prop where
  nextFreeElement : before.nextFreeElement ≤ after.nextFreeElement
  old_or_new : ∀ entry ∈ after.values,
    entry ∈ before.values ∨ before.nextFreeElement ≤ entry.1

namespace Grows

variable {before between after : IteratedCollection}

theorem refl (collection : IteratedCollection) : Grows collection collection where
  nextFreeElement := Nat.le_refl _
  old_or_new := fun _ member => .inl member

theorem trans (first : Grows before between) (second : Grows between after) :
    Grows before after where
  nextFreeElement := first.nextFreeElement.trans second.nextFreeElement
  old_or_new := by
    intro entry member
    obtain old | new := second.old_or_new entry member
    · exact first.old_or_new entry old
    · exact .inr (first.nextFreeElement.trans new)

theorem adds (objects : List Zval) : Grows collection { collection with
    toPhpCollection := objects.foldl collectionAdd collection.toPhpCollection } := by
  induction objects generalizing collection with
  | nil => exact refl collection
  | cons object objects ih =>
      refine trans ?_ (@ih { collection with
        toPhpCollection := collectionAdd collection.toPhpCollection object })
      refine ⟨Nat.le_succ _, fun entry member => ?_⟩
      rcases List.mem_append.mp member with old | new
      · exact .inl old
      · exact .inr (Nat.le_of_eq (by rw [List.mem_singleton.mp new]))

theorem act (action : CollectionAction) : Grows collection (collection.act action) := by
  cases action with
  | add objects =>
      rw [IteratedCollection.act, collectionStep, PhpCollection.add]
      split
      · exact refl collection
      · exact adds objects
  | remove index =>
      rw [IteratedCollection.act, collectionStep, PhpCollection.remove, collectionDel]
      split
      · exact ⟨Nat.le_refl _, fun entry member => .inl (List.mem_of_mem_filter member)⟩
      · exact refl collection

theorem acts (body : List CollectionAction) :
    Grows collection (body.foldl IteratedCollection.act collection) := by
  induction body generalizing collection with
  | nil => exact refl collection
  | cons action body ih => exact (act action).trans ih

theorem next : Grows collection collection.next := by
  rw [IteratedCollection.next]
  split
  · exact ⟨Nat.le_refl _, fun _ member => .inl member⟩
  · exact refl collection

end Grows

theorem position_acts (collection : IteratedCollection) (body : List CollectionAction) :
    (body.foldl act collection).position = collection.position := by
  induction body generalizing collection with
  | nil => rfl
  | cons action body ih => exact ih (collection.act action)

/-- The pointer has gone over some elements, in order, and left out none that is still there. -/
structure WentOver (before : IteratedCollection) (passed : List (Nat × Zval))
    (after : IteratedCollection) : Prop where
  ordered : after.Ordered
  grows : Grows before after
  position : before.position ≤ after.position
  ahead : ∀ entry ∈ passed, before.position ≤ entry.1
  ascending : (passed.map Prod.fst).Pairwise (· < ·)
  complete : ∀ entry ∈ after.values, before.position ≤ entry.1 →
    entry ∈ passed ∨ after.position ≤ entry.1

/-- After a round the pointer is behind all that was gone over, or there is nothing more. -/
structure WentRound (before : IteratedCollection) (round : CollectionRound)
    (after : IteratedCollection) : Prop extends WentOver before round.passed after where
  past : after.currentEntry = none ∨ ∀ entry ∈ round.passed, entry.1 < after.position
  old : round.shown.1 < before.nextFreeElement
  removed : round.skipped ≠ none → round.shown.1 ∉ after.values.keys

theorem WentRound.of_ordered (ordered : collection.Ordered) {body : List CollectionAction}
    {round : CollectionRound} {next : IteratedCollection}
    (around : collection.round body = some (round, next)) : WentRound collection round next := by
  obtain ⟨shown, current, around⟩ := Option.map_eq_some_iff.mp around
  obtain ⟨rfl, rfl⟩ := Prod.mk.inj around
  obtain ⟨member, ahead⟩ := mem_of_currentEntry current
  have old : shown.1 < collection.nextFreeElement :=
    ordered.indexed shown.1 (mem_keys_of_mem member)
  have orderedAfter := ordered.acts body
  have grows : Grows collection (body.foldl act collection) := Grows.acts body
  have position := position_acts collection body
  generalize body.foldl act collection = after at orderedAfter grows position
  -- whatever is still ahead of the pointer comes behind the element shown
  have behind (entry : Nat × Zval) (there : entry ∈ after.values)
      (aheadOf : collection.position ≤ entry.1) : shown.1 ≤ entry.1 := by
    obtain before | new := grows.old_or_new entry there
    · exact ordered.current_le current before aheadOf
    · exact Nat.le_of_lt (Nat.lt_of_lt_of_le old new)
  have nextOrdered := orderedAfter.next
  have nextGrows := grows.trans Grows.next
  cases found : after.currentEntry with
  | none =>
      have stays : after.next = after := by rw [IteratedCollection.next, found]
      rw [stays] at nextOrdered nextGrows ⊢
      refine ⟨⟨nextOrdered, nextGrows, Nat.le_of_eq position.symm, ?_, ?_,
        fun entry there aheadOf => ?_⟩, .inl found, old, by simp⟩
      · simpa [CollectionRound.passed] using ahead
      · simp [CollectionRound.passed]
      · have before := currentEntry_eq_none_iff.mp found entry there
        omega
  | some current =>
      obtain ⟨there, aheadOf⟩ := mem_of_currentEntry found
      rw [position] at aheadOf
      have shownLe := behind current there aheadOf
      have moved : after.next.position = current.1 + 1 := by rw [IteratedCollection.next, found]
      have values : after.next.values = after.values := by rw [IteratedCollection.next, found]
      cases kept : after.values.keys.contains shown.1 with
      | true =>
          have itself (entry : Nat × Zval) (there : entry ∈ after.values)
              (index : entry.1 = shown.1) : entry = shown := by
            obtain before | new := grows.old_or_new entry there
            · exact ordered.eq_of_index before member index
            · omega
          have same : current.1 = shown.1 := by
            obtain ⟨entry, present, index⟩ := List.mem_map.mp (List.contains_iff_mem.mp kept)
            have first := orderedAfter.current_le found present (by omega)
            omega
          refine ⟨⟨nextOrdered, nextGrows, by omega, ?_, ?_, fun entry present aheadOf => ?_⟩,
            .inr ?_, old, by simp⟩
          · simpa [CollectionRound.passed] using ahead
          · simp [CollectionRound.passed]
          · rw [values] at present
            have later := behind entry present aheadOf
            rw [moved]
            by_cases index : entry.1 = shown.1
            · exact .inl (by simp [CollectionRound.passed, itself entry present index])
            · exact .inr (by omega)
          · simpa [CollectionRound.passed, moved] using Nat.le_of_eq same.symm
      | false =>
          have apart : shown.1 ≠ current.1 := by
            intro same
            have present := mem_keys_of_mem there
            rw [← same, ← List.contains_iff_mem, kept] at present
            cases present
          refine ⟨⟨nextOrdered, nextGrows, by omega, ?_, ?_, fun entry present aheadOf => ?_⟩,
            .inr ?_, old, fun _ present => ?_⟩
          · simpa [CollectionRound.passed] using ⟨ahead, aheadOf⟩
          · simpa [CollectionRound.passed] using Nat.lt_of_le_of_ne shownLe apart
          · rw [values] at present
            have first := orderedAfter.current_le found present (by omega)
            rw [moved]
            by_cases index : entry.1 = current.1
            · have same := orderedAfter.eq_of_index present there index
              exact .inl (by simp [CollectionRound.passed, same])
            · exact .inr (by omega)
          · simpa [CollectionRound.passed, moved] using shownLe
          · rw [values, ← List.contains_iff_mem, kept] at present
            cases present

theorem WentOver.nothing (ordered : collection.Ordered) :
    WentOver collection [] collection where
  ordered := ordered
  grows := .refl collection
  position := Nat.le_refl _
  ahead := by simp
  ascending := .nil
  complete := fun _ _ ahead => .inr ahead

theorem WentOver.append {before between after : IteratedCollection}
    {passed later : List (Nat × Zval)} (first : WentOver before passed between)
    (second : WentOver between later after)
    (past : later = [] ∨ ∀ entry ∈ passed, entry.1 < between.position) :
    WentOver before (passed ++ later) after where
  ordered := second.ordered
  grows := first.grows.trans second.grows
  position := first.position.trans second.position
  ahead := by
    rw [List.forall_mem_append]
    exact ⟨first.ahead, fun entry member => first.position.trans (second.ahead entry member)⟩
  ascending := by
    rw [List.map_append, List.pairwise_append]
    refine ⟨first.ascending, second.ascending, ?_⟩
    rw [List.forall_mem_map]
    intro entry member
    rw [List.forall_mem_map]
    intro other there
    obtain rfl | past := past
    · cases there
    · exact Nat.lt_of_lt_of_le (past entry member) (second.ahead other there)
  complete := by
    intro entry member ahead
    rw [List.mem_append]
    by_cases reached : between.position ≤ entry.1
    · exact (second.complete entry member reached).imp_left .inr
    -- it is not new, so it was there between the two
    obtain old | new := second.grows.old_or_new entry member
    · exact .inl (.inl ((first.complete entry old ahead).resolve_right reached))
    · exact absurd (first.ordered.reached.trans new) reached

theorem rounds_of_done (done : collection.currentEntry = none)
    (bodies : List (List CollectionAction)) : collection.rounds bodies = ([], collection) := by
  cases bodies with
  | nil => rfl
  | cons body bodies => rw [rounds, round, done, Option.map_none]

theorem WentOver.of_rounds (ordered : collection.Ordered) (bodies : List (List CollectionAction)) :
    WentOver collection (goneOver (collection.rounds bodies).1) (collection.rounds bodies).2 := by
  induction bodies generalizing collection with
  | nil => exact .nothing ordered
  | cons body bodies ih =>
      rw [rounds]
      cases around : collection.round body with
      | none => exact .nothing ordered
      | some went =>
          obtain ⟨round, next⟩ := went
          have one := WentRound.of_ordered ordered around
          refine one.append (ih one.ordered) (one.past.imp_left fun done => ?_)
          rw [rounds_of_done done]
          rfl

theorem removed_of_skipped (ordered : collection.Ordered) (bodies : List (List CollectionAction)) :
    ∀ round ∈ (collection.rounds bodies).1, round.skipped ≠ none →
      round.shown.1 ∉ (collection.rounds bodies).2.values.keys := by
  induction bodies generalizing collection with
  | nil => simp [rounds]
  | cons body bodies ih =>
      rw [rounds]
      cases around : collection.round body with
      | none => simp
      | some went =>
          obtain ⟨round, next⟩ := went
          have one := WentRound.of_ordered ordered around
          rw [List.forall_mem_cons]
          refine ⟨fun skips present => ?_, ih one.ordered⟩
          obtain ⟨entry, member, index⟩ := List.mem_map.mp present
          obtain old | new := (WentOver.of_rounds one.ordered bodies).grows.old_or_new entry member
          · exact one.removed skips (index ▸ mem_keys_of_mem old)
          · have before := Nat.lt_of_lt_of_le one.old one.grows.nextFreeElement
            omega

end IteratedCollection

end PhpDriver
