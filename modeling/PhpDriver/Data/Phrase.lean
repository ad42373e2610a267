import Mathlib.Data.List.Basic

namespace PhpDriver.Data

/-! Words with phrases in brackets after them, and what their texts tell of them. -/

inductive Phrase (Ch : Type) where
  | word (word : List Ch)
  | applied (word : List Ch) (arguments : List (Phrase Ch))

structure Brackets (Ch : Type) where
  opening : Ch
  closing : Ch
  comma : Ch
  blanks : List Ch
  opening_ne_closing : opening ≠ closing
  opening_ne_comma : opening ≠ comma
  closing_ne_comma : closing ≠ comma

namespace Brackets

variable {Ch : Type} (brackets : Brackets Ch)

def Delimits (ch : Ch) : Prop :=
  ch = brackets.opening ∨ ch = brackets.closing ∨ ch = brackets.comma

structure IsWord (word : List Ch) : Prop where
  nonempty : word ≠ []
  outside : ∀ ch ∈ word, ¬ brackets.Delimits ch

def Ends (rest : List Ch) : Prop :=
  ∀ ch ∈ rest.head?, ch = brackets.closing ∨ ch = brackets.comma

mutual

def text : Phrase Ch → List Ch
  | .word word => word
  | .applied word arguments =>
      word ++ brackets.opening :: (texts arguments ++ [brackets.closing])

def texts : List (Phrase Ch) → List Ch
  | [] => []
  | phrase :: phrases =>
      text phrase ++
        if phrases.isEmpty then [] else brackets.comma :: (brackets.blanks ++ texts phrases)

end

mutual

def Readable : Phrase Ch → Prop
  | .word word => brackets.IsWord word
  | .applied word arguments => brackets.IsWord word ∧ AllReadable arguments

def AllReadable : List (Phrase Ch) → Prop
  | [] => True
  | phrase :: phrases => Readable phrase ∧ AllReadable phrases

end

theorem texts_singleton (phrase : Phrase Ch) :
    brackets.texts [phrase] = brackets.text phrase := by
  rw [texts, if_pos List.isEmpty_nil, List.append_nil]

theorem texts_cons_cons (phrase next : Phrase Ch) (phrases : List (Phrase Ch)) :
    brackets.texts (phrase :: next :: phrases) =
      brackets.text phrase ++
        brackets.comma :: (brackets.blanks ++ brackets.texts (next :: phrases)) := by
  rw [texts, if_neg (by simp)]

variable {brackets}

theorem IsWord.append_inj {word other rest left : List Ch} (isWord : brackets.IsWord word)
    (isOther : brackets.IsWord other) (ends : ∀ ch ∈ rest.head?, brackets.Delimits ch)
    (leaves : ∀ ch ∈ left.head?, brackets.Delimits ch) (same : word ++ rest = other ++ left) :
    word = other ∧ rest = left := by
  replace isWord := isWord.outside
  replace isOther := isOther.outside
  induction word generalizing other with
  | nil =>
      cases other with
      | nil => exact ⟨rfl, same⟩
      | cons ch other =>
          rw [List.nil_append] at same
          exact absurd (ends ch (by rw [same]; rfl)) (isOther ch List.mem_cons_self)
  | cons ch word ih =>
      cases other with
      | nil =>
          rw [List.nil_append] at same
          exact absurd (leaves ch (by rw [← same]; rfl)) (isWord ch List.mem_cons_self)
      | cons first other =>
          rw [List.cons_append, List.cons_append, List.cons.injEq] at same
          rw [List.forall_mem_cons] at isWord isOther
          obtain ⟨rfl, tail⟩ := same
          obtain ⟨rfl, ended⟩ := ih tail isWord.2 isOther.2
          exact ⟨rfl, ended⟩

theorem Ends.delimits {rest : List Ch} (ends : brackets.Ends rest) :
    ∀ ch ∈ rest.head?, brackets.Delimits ch :=
  fun ch head => .inr (ends ch head)

theorem delimits_opening (rest : List Ch) :
    ∀ ch ∈ (brackets.opening :: rest).head?, brackets.Delimits ch := by
  rintro ch head
  obtain rfl := Option.some.inj head
  exact .inl rfl

theorem not_ends_opening (rest : List Ch) : ¬ brackets.Ends (brackets.opening :: rest) := by
  intro ends
  obtain same | same := ends brackets.opening rfl
  · exact brackets.opening_ne_closing same
  · exact brackets.opening_ne_comma same

theorem ends_closing (rest : List Ch) : brackets.Ends (brackets.closing :: rest) := by
  rintro ch head
  obtain rfl := Option.some.inj head
  exact .inl rfl

theorem ends_comma (rest : List Ch) : brackets.Ends (brackets.comma :: rest) := by
  rintro ch head
  obtain rfl := Option.some.inj head
  exact .inr rfl

theorem text_ne_closing {phrase : Phrase Ch} (readable : brackets.Readable phrase)
    (rest left : List Ch) : brackets.text phrase ++ rest ≠ brackets.closing :: left := by
  have word_ne {word : List Ch} (isWord : brackets.IsWord word) (rest : List Ch) :
      word ++ rest ≠ brackets.closing :: left := by
    intro same
    cases word with
    | nil => exact isWord.nonempty rfl
    | cons ch word =>
        rw [List.cons_append, List.cons.injEq] at same
        exact isWord.outside ch List.mem_cons_self (.inr (.inl same.1))
  cases phrase with
  | word word => exact word_ne readable rest
  | applied word arguments =>
      rw [text, List.append_assoc]
      exact word_ne readable.1 _

mutual

theorem text_append_inj : ∀ {phrase other : Phrase Ch} {rest left : List Ch},
    brackets.Readable phrase → brackets.Readable other → brackets.Ends rest →
      brackets.Ends left → brackets.text phrase ++ rest = brackets.text other ++ left →
      phrase = other ∧ rest = left
  | .word word, .word other, rest, left, readable, readableOther, ends, leaves, same => by
      rw [Readable] at readable readableOther
      rw [text, text] at same
      obtain ⟨rfl, tail⟩ := readable.append_inj readableOther ends.delimits leaves.delimits same
      exact ⟨rfl, tail⟩
  | .word word, .applied other arguments, rest, left, readable, readableOther, ends, leaves,
      same => by
      rw [Readable] at readable
      rw [Readable] at readableOther
      rw [text, text, List.append_assoc, List.cons_append] at same
      obtain ⟨_, tail⟩ :=
        readable.append_inj readableOther.1 ends.delimits (delimits_opening _) same
      exact absurd (tail ▸ ends) (not_ends_opening _)
  | .applied word arguments, .word other, rest, left, readable, readableOther, ends, leaves,
      same => by
      rw [Readable] at readable
      rw [Readable] at readableOther
      rw [text, text, List.append_assoc, List.cons_append] at same
      obtain ⟨_, tail⟩ :=
        readable.1.append_inj readableOther (delimits_opening _) leaves.delimits same
      exact absurd (tail ▸ leaves) (not_ends_opening _)
  | .applied word arguments, .applied other others, rest, left, readable, readableOther, ends,
      leaves, same => by
      rw [Readable] at readable readableOther
      rw [text, text, List.append_assoc, List.append_assoc, List.cons_append,
        List.cons_append] at same
      obtain ⟨rfl, tail⟩ :=
        readable.1.append_inj readableOther.1 (delimits_opening _) (delimits_opening _) same
      rw [List.cons.injEq, List.append_assoc, List.append_assoc, List.singleton_append,
        List.singleton_append] at tail
      obtain ⟨rfl, ended⟩ := texts_append_inj readable.2 readableOther.2 tail.2
      exact ⟨rfl, ended⟩

theorem texts_append_inj : ∀ {phrases others : List (Phrase Ch)} {rest left : List Ch},
    brackets.AllReadable phrases → brackets.AllReadable others →
      brackets.texts phrases ++ brackets.closing :: rest =
        brackets.texts others ++ brackets.closing :: left →
      phrases = others ∧ rest = left
  | [], [], rest, left, _, _, same => ⟨rfl, (List.cons.inj same).2⟩
  | [], other :: others, rest, left, _, readableOthers, same => by
      rw [AllReadable] at readableOthers
      rw [texts, texts, List.nil_append, List.append_assoc] at same
      exact absurd same.symm (text_ne_closing readableOthers.1 _ _)
  | phrase :: phrases, [], rest, left, readable, _, same => by
      rw [AllReadable] at readable
      rw [texts, texts, List.nil_append, List.append_assoc] at same
      exact absurd same (text_ne_closing readable.1 _ _)
  | [phrase], [other], rest, left, readable, readableOthers, same => by
      rw [AllReadable] at readable readableOthers
      rw [texts_singleton, texts_singleton] at same
      obtain ⟨rfl, tail⟩ := text_append_inj readable.1 readableOthers.1 (ends_closing _)
        (ends_closing _) same
      exact ⟨rfl, (List.cons.inj tail).2⟩
  | [phrase], other :: next :: others, rest, left, readable, readableOthers, same => by
      rw [AllReadable] at readable readableOthers
      rw [texts_singleton, texts_cons_cons, List.append_assoc] at same
      obtain ⟨_, tail⟩ := text_append_inj readable.1 readableOthers.1 (ends_closing _)
        (ends_comma _) same
      exact absurd (List.cons.inj tail).1 brackets.closing_ne_comma
  | phrase :: next :: phrases, [other], rest, left, readable, readableOthers, same => by
      rw [AllReadable] at readable readableOthers
      rw [texts_singleton, texts_cons_cons, List.append_assoc] at same
      obtain ⟨_, tail⟩ := text_append_inj readable.1 readableOthers.1 (ends_comma _)
        (ends_closing _) same
      exact absurd (List.cons.inj tail).1.symm brackets.closing_ne_comma
  | phrase :: next :: phrases, other :: second :: others, rest, left, readable, readableOthers,
      same => by
      rw [AllReadable] at readable readableOthers
      rw [texts_cons_cons, texts_cons_cons, List.append_assoc, List.append_assoc] at same
      obtain ⟨rfl, tail⟩ := text_append_inj readable.1 readableOthers.1 (ends_comma _)
        (ends_comma _) same
      replace tail := (List.cons.inj tail).2
      rw [List.append_eq, List.append_eq, List.append_assoc, List.append_assoc,
        List.append_cancel_left_eq] at tail
      obtain ⟨same, ended⟩ := texts_append_inj readable.2 readableOthers.2 tail
      rw [same]
      exact ⟨rfl, ended⟩

end

theorem text_inj {phrase other : Phrase Ch} (readable : brackets.Readable phrase)
    (readableOther : brackets.Readable other) :
    brackets.text phrase = brackets.text other ↔ phrase = other := by
  constructor
  · intro same
    have nothing : brackets.Ends [] := by simp [Ends]
    have appended : brackets.text phrase ++ [] = brackets.text other ++ [] := by
      rw [List.append_nil, List.append_nil, same]
    exact (text_append_inj readable readableOther nothing nothing appended).1
  · intro same
    rw [same]

end Brackets

end PhpDriver.Data
