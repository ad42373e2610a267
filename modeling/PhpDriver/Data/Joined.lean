import Mathlib.Data.List.Forall2

namespace PhpDriver.Data.Joined

/-! Texts joined with a separator, and the pieces that the separator cuts a text into. -/

def joined (separator : α) (texts : List (List α)) : List α :=
  [separator].intercalate texts

theorem mem_joined {texts : List (List α)} {char : α} (member : char ∈ joined separator texts) :
    char = separator ∨ ∃ text ∈ texts, char ∈ text := by
  induction texts with
  | nil => cases member
  | cons text texts ih =>
      cases texts with
      | nil => exact Or.inr ⟨text, List.mem_cons_self, by simpa [joined] using member⟩
      | cons next texts =>
          rw [joined, List.intercalate_cons_cons, ← joined] at member
          grind

variable [BEq α]

def pieces (separator : α) (texts : List (List α)) : List (List α) :=
  texts.flatMap fun text => text.splitOn separator

variable {separator : α}

@[simp] theorem pieces_nil : pieces separator [] = [] := rfl

@[simp] theorem pieces_cons (text : List α) (texts : List (List α)) :
    pieces separator (text :: texts) = text.splitOn separator ++ pieces separator texts :=
  List.flatMap_cons

variable [LawfulBEq α]

theorem splitOn_joined {texts : List (List α)} (some_ : texts ≠ []) :
    (joined separator texts).splitOn separator = pieces separator texts := by
  induction texts with
  | nil => exact absurd rfl some_
  | cons text texts ih =>
      cases texts with
      | nil => simp [joined]
      | cons next texts =>
          have rest := ih (List.cons_ne_nil _ _)
          rw [joined] at rest
          rw [joined, List.intercalate_cons_cons, List.append_assoc, List.singleton_append,
            List.splitOn_append_cons_self, rest, pieces_cons text]

theorem splitOn_inj (separator : α) {text other : List α} :
    text.splitOn separator = other.splitOn separator ↔ text = other := by
  constructor
  · intro same
    have cut (text : List α) : [separator].intercalate (text.splitOn separator) = text :=
      List.intercalate_splitOn separator
    rw [← cut text, same, cut]
  · intro same
    rw [same]

theorem joined_eq_iff {texts others : List (List α)} (some_ : texts ≠ []) (others_ : others ≠ []) :
    joined separator texts = joined separator others ↔
      pieces separator texts = pieces separator others := by
  rw [← splitOn_joined some_, ← splitOn_joined others_, splitOn_inj]

/-- Texts whose pieces are as many text by text are told apart by their pieces. -/
theorem eq_of_pieces_eq {texts others : List (List α)}
    (aligned : List.Forall₂ (fun text other =>
      (text.splitOn separator).length = (other.splitOn separator).length) texts others)
    (same : pieces separator texts = pieces separator others) : texts = others := by
  induction aligned with
  | nil => rfl
  | cons length aligned ih =>
      rw [pieces_cons, pieces_cons] at same
      obtain ⟨first, rest⟩ := List.append_inj same length
      rw [(splitOn_inj separator).mp first, ih rest]

end PhpDriver.Data.Joined
