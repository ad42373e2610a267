import PhpDriver.Data.Lexicographic

namespace PhpDriver.Data

/-! Three-way comparisons that order some of the values of a type: reflexive, antisymmetric
in sign and transitive, so that sorting such values sees a total preorder. -/

structure LawfulOn {α : Type} (holds : α → Prop) (compare : α → α → Int) : Prop where
  refl : ∀ item, holds item → compare item item = 0
  swap : ∀ first second, holds first → holds second →
    (compare first second < 0 ↔ 0 < compare second first)
  trans : ∀ first second third, holds first → holds second → holds third →
    compare first second ≤ 0 → compare second third ≤ 0 → compare first third ≤ 0

namespace LawfulOn

variable {α β : Type} {holds : α → Prop} {compare : α → α → Int}

theorem total (lawful : LawfulOn holds compare) {first second : α} (firstHolds : holds first)
    (secondHolds : holds second) : compare first second ≤ 0 ∨ compare second first ≤ 0 := by
  have swapped := lawful.swap second first secondHolds firstHolds
  omega

theorem mono (lawful : LawfulOn holds compare) {part : α → Prop}
    (within : ∀ item, part item → holds item) : LawfulOn part compare where
  refl := fun item known => lawful.refl item (within item known)
  swap := fun first second firstPart secondPart =>
    lawful.swap first second (within first firstPart) (within second secondPart)
  trans := fun first second third firstPart secondPart thirdPart =>
    lawful.trans first second third (within first firstPart) (within second secondPart)
      (within third thirdPart)

theorem congr (lawful : LawfulOn holds compare) {other : α → α → Int}
    (same : ∀ first second, holds first → holds second →
      other first second = compare first second) : LawfulOn holds other where
  refl := by
    intro item known
    rw [same item item known known]
    exact lawful.refl item known
  swap := by
    intro first second firstHolds secondHolds
    rw [same first second firstHolds secondHolds, same second first secondHolds firstHolds]
    exact lawful.swap first second firstHolds secondHolds
  trans := by
    intro first second third firstHolds secondHolds thirdHolds
    rw [same first second firstHolds secondHolds, same second third secondHolds thirdHolds,
      same first third firstHolds thirdHolds]
    exact lawful.trans first second third firstHolds secondHolds thirdHolds

theorem of_equal (same : ∀ first second, holds first → holds second → compare first second = 0) :
    LawfulOn holds compare where
  refl := fun item known => same item item known known
  swap := by
    intro first second firstHolds secondHolds
    rw [same first second firstHolds secondHolds, same second first secondHolds firstHolds]
  trans := by
    intro first second third firstHolds secondHolds thirdHolds _ _
    exact Int.le_of_eq (same first third firstHolds thirdHolds)

theorem comap (lawful : LawfulOn holds compare) (view : β → α) :
    LawfulOn (fun item => holds (view item))
      (fun first second => compare (view first) (view second)) where
  refl := fun item => lawful.refl (view item)
  swap := fun first second => lawful.swap (view first) (view second)
  trans := fun first second third => lawful.trans (view first) (view second) (view third)

theorem of_related (lawful : LawfulOn holds compare) (Related : β → α → Prop)
    {part : β → Prop} {other : β → β → Int}
    (related : ∀ item, part item → ∃ image, holds image ∧ Related item image)
    (same : ∀ first second image otherImage, Related first image → Related second otherImage →
      other first second = compare image otherImage) : LawfulOn part other where
  refl := by
    intro item known
    obtain ⟨image, imageHolds, relates⟩ := related item known
    rw [same item item image image relates relates]
    exact lawful.refl image imageHolds
  swap := by
    intro first second firstPart secondPart
    obtain ⟨image, imageHolds, relates⟩ := related first firstPart
    obtain ⟨otherImage, otherHolds, otherRelates⟩ := related second secondPart
    rw [same first second image otherImage relates otherRelates,
      same second first otherImage image otherRelates relates]
    exact lawful.swap image otherImage imageHolds otherHolds
  trans := by
    intro first second third firstPart secondPart thirdPart
    obtain ⟨image, imageHolds, relates⟩ := related first firstPart
    obtain ⟨otherImage, otherHolds, otherRelates⟩ := related second secondPart
    obtain ⟨lastImage, lastHolds, lastRelates⟩ := related third thirdPart
    rw [same first second image otherImage relates otherRelates,
      same second third otherImage lastImage otherRelates lastRelates,
      same first third image lastImage relates lastRelates]
    exact lawful.trans image otherImage lastImage imageHolds otherHolds lastHolds

theorem of_form (make : β → α) (formed : ∀ item, holds item → ∃ source, make source = item)
    (lawful : LawfulOn (fun source => holds (make source))
      (fun first second => compare (make first) (make second))) :
    LawfulOn holds compare := by
  apply lawful.of_related (fun item source => make source = item)
  · intro item known
    obtain ⟨source, rfl⟩ := formed item known
    exact ⟨source, known, rfl⟩
  · rintro first second image otherImage rfl rfl
    rfl

/-- A second comparison decides among the values the first takes as equal. -/
theorem thenCompare (lawful : LawfulOn holds compare) {next : α → α → Int}
    (within : ∀ item, holds item →
      LawfulOn (fun other => holds other ∧ compare item other = 0) next) :
    LawfulOn holds fun first second =>
      Data.thenCompare (compare first second) (next first second) where
  refl := by
    intro item known
    rw [lawful.refl item known, thenCompare_zero_left]
    exact (within item known).refl item ⟨known, lawful.refl item known⟩
  swap := by
    intro first second firstHolds secondHolds
    have swap := lawful.swap first second firstHolds secondHolds
    have swapped := lawful.swap second first secondHolds firstHolds
    have later (same : compare first second = 0) :=
      (within first firstHolds).swap first second
        ⟨firstHolds, lawful.refl first firstHolds⟩ ⟨secondHolds, same⟩
    grind [Data.thenCompare]
  trans := by
    intro first second third firstHolds secondHolds thirdHolds lower upper
    have through := lawful.trans first second third firstHolds secondHolds thirdHolds
    have left := lawful.trans third first second thirdHolds firstHolds secondHolds
    have right := lawful.trans second third first secondHolds thirdHolds firstHolds
    have swapFirst := lawful.swap first second firstHolds secondHolds
    have swapSecond := lawful.swap second third secondHolds thirdHolds
    have swapBoth := lawful.swap third first thirdHolds firstHolds
    have later (same : compare first second = 0) (others : compare first third = 0) :=
      (within first firstHolds).trans first second third
        ⟨firstHolds, lawful.refl first firstHolds⟩ ⟨secondHolds, same⟩ ⟨thirdHolds, others⟩
    have swappedFirst := lawful.swap second first secondHolds firstHolds
    have swappedSecond := lawful.swap third second thirdHolds secondHolds
    have swappedBoth := lawful.swap first third firstHolds thirdHolds
    grind [Data.thenCompare]

theorem andThen (lawful : LawfulOn holds compare) {next : α → α → Int}
    (nextLawful : LawfulOn holds next) :
    LawfulOn holds fun first second =>
      Data.thenCompare (compare first second) (next first second) :=
  lawful.thenCompare fun _ _ => nextLawful.mono fun _ known => known.1

theorem lex (lawful : LawfulOn holds compare) :
    LawfulOn (fun items => ∀ item ∈ items, holds item) (lexCompare compare) where
  refl := by
    intro items known
    induction items with
    | nil => rfl
    | cons item items ih =>
        rw [List.forall_mem_cons] at known
        rw [lexCompare, lawful.refl item known.1, thenCompare_zero_left, ih known.2]
  swap := by
    intro first
    induction first with
    | nil => intro second _ _; cases second <;> simp [lexCompare]
    | cons head rest ih =>
        intro second firstHolds secondHolds
        cases second with
        | nil => simp [lexCompare]
        | cons other others =>
            rw [List.forall_mem_cons] at firstHolds secondHolds
            have swap := lawful.swap head other firstHolds.1 secondHolds.1
            have swapped := lawful.swap other head secondHolds.1 firstHolds.1
            have tails := ih others firstHolds.2 secondHolds.2
            grind [lexCompare, Data.thenCompare]
  trans := by
    intro first
    induction first with
    | nil => intro second third _ _ _ _ _; cases third <;> simp [lexCompare]
    | cons head rest ih =>
        intro second third firstHolds secondHolds thirdHolds lower upper
        cases second with
        | nil => simp [lexCompare] at lower
        | cons other others =>
            cases third with
            | nil => simp [lexCompare] at upper
            | cons last lasts =>
                rw [List.forall_mem_cons] at firstHolds secondHolds thirdHolds
                have tails := ih others lasts firstHolds.2 secondHolds.2 thirdHolds.2
                have through := lawful.trans head other last firstHolds.1 secondHolds.1
                  thirdHolds.1
                have left := lawful.trans last head other thirdHolds.1 firstHolds.1
                  secondHolds.1
                have right := lawful.trans other last head secondHolds.1 thirdHolds.1
                  firstHolds.1
                have swapFirst := lawful.swap other head secondHolds.1 firstHolds.1
                have swapSecond := lawful.swap last other thirdHolds.1 secondHolds.1
                have swapBoth := lawful.swap last head thirdHolds.1 firstHolds.1
                have swappedFirst := lawful.swap head other firstHolds.1 secondHolds.1
                have swappedSecond := lawful.swap other last secondHolds.1 thirdHolds.1
                have swappedBoth := lawful.swap head last firstHolds.1 thirdHolds.1
                grind [lexCompare, Data.thenCompare]

end LawfulOn

end PhpDriver.Data
