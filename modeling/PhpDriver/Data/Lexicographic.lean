namespace PhpDriver.Data

/-! Three-way comparison by an integer's sign, and its extension to lists: the first
places that differ decide, and a proper start of a list comes before it. -/

def thenCompare (result next : Int) : Int :=
  if result ≠ 0 then result else next

@[simp] theorem thenCompare_zero_left (next : Int) : thenCompare 0 next = next := rfl

@[simp] theorem thenCompare_zero_right (result : Int) : thenCompare result 0 = result := by
  grind [thenCompare]

theorem thenCompare_assoc (first second third : Int) :
    thenCompare (thenCompare first second) third =
      thenCompare first (thenCompare second third) := by
  grind [thenCompare]

theorem thenCompare_self_left (result next : Int) :
    thenCompare result (thenCompare result next) = thenCompare result next := by
  grind [thenCompare]

theorem thenCompare_of_ne_zero {result : Int} (decided : result ≠ 0) (next : Int) :
    thenCompare result next = result :=
  if_pos decided

theorem thenCompare_eq_zero_iff {result next : Int} :
    thenCompare result next = 0 ↔ result = 0 ∧ next = 0 := by
  grind [thenCompare]

theorem neg_thenCompare (result next : Int) :
    -thenCompare result next = thenCompare (-result) (-next) := by
  grind [thenCompare]

section

variable {α : Type} (compare : α → α → Int)

def lexCompare : List α → List α → Int
  | [], [] => 0
  | [], _ :: _ => -1
  | _ :: _, [] => 1
  | first :: restFirst, second :: restSecond =>
      thenCompare (compare first second) (lexCompare restFirst restSecond)

variable {compare}

theorem lexCompare_self (refl : ∀ item, compare item item = 0) (items : List α) :
    lexCompare compare items items = 0 := by
  induction items with
  | nil => rfl
  | cons item items ih => rw [lexCompare, refl, thenCompare_zero_left, ih]

theorem lexCompare_swap (swap : ∀ first second, compare second first = -compare first second)
    (first second : List α) :
    lexCompare compare second first = -lexCompare compare first second := by
  induction first generalizing second with
  | nil => cases second <;> rfl
  | cons head rest ih =>
      cases second with
      | nil => rfl
      | cons other others => rw [lexCompare, lexCompare, neg_thenCompare, swap head other, ih]

theorem lexCompare_trans (swap : ∀ first second, compare second first = -compare first second)
    {holds : α → Prop}
    (trans : ∀ first second third, holds first → holds second → holds third →
      compare first second ≤ 0 → compare second third ≤ 0 → compare first third ≤ 0)
    {first second third : List α} (firstHolds : ∀ item ∈ first, holds item)
    (secondHolds : ∀ item ∈ second, holds item) (thirdHolds : ∀ item ∈ third, holds item)
    (lower : lexCompare compare first second ≤ 0) (upper : lexCompare compare second third ≤ 0) :
    lexCompare compare first third ≤ 0 := by
  induction first generalizing second third with
  | nil => cases third <;> simp [lexCompare]
  | cons head rest ih =>
      cases second with
      | nil => simp [lexCompare] at lower
      | cons other others =>
          cases third with
          | nil => simp [lexCompare] at upper
          | cons last lasts =>
              rw [List.forall_mem_cons] at firstHolds secondHolds thirdHolds
              have through (tail : lexCompare compare rest others ≤ 0)
                  (tails : lexCompare compare others lasts ≤ 0) :
                  lexCompare compare rest lasts ≤ 0 :=
                ih firstHolds.2 secondHolds.2 thirdHolds.2 tail tails
              -- an item cannot be at once below another and above it
              have forward := trans head other last firstHolds.1 secondHolds.1 thirdHolds.1
              have right := trans last head other thirdHolds.1 firstHolds.1 secondHolds.1
              have left := trans other last head secondHolds.1 thirdHolds.1 firstHolds.1
              have swapFirst := swap head other
              have swapSecond := swap other last
              have swapBoth := swap head last
              grind [lexCompare, thenCompare]

end

end PhpDriver.Data
