import Mathlib.Data.List.Chain
import PhpDriver.Util.MarshalRead

namespace PhpDriver

open ClassTree Punctuation

/-! How the texts are spelled that the grammar derives: an opening parenthesis and a separator
come before a letter or a digit. -/

def Opener (ch : UInt8) : Prop :=
  ch = parenOpen ∨ ch = comma ∨ ch = colon

def Precedes (first second : UInt8) : Prop :=
  Opener first → isalnum second = true

structure Clean (text : List UInt8) : Prop where
  chain : text.IsChain Precedes
  plain : underscore ∉ text ∧ dollar ∉ text

theorem Clean.part {text part : List UInt8} (clean : Clean text) (inside : part <:+: text) :
    Clean part where
  chain := List.IsChain.infix clean.chain inside
  plain := ⟨fun member => clean.plain.1 (inside.subset member),
    fun member => clean.plain.2 (inside.subset member)⟩

theorem Clean.next {text before after : List UInt8} {first second : UInt8} (clean : Clean text)
    (split : text = before ++ first :: second :: after) (opens : Opener first) :
    isalnum second = true := by
  have pair : [first, second] <:+: text := ⟨before, after, by simp [split]⟩
  have chain := List.IsChain.infix clean.chain pair
  rw [List.isChain_cons_cons] at chain
  exact chain.1 opens

structure Spelled (text : List UInt8) : Prop extends Clean text where
  starts : ∃ ch ∈ text.head?, isalnum ch = true
  ends : ∀ ch ∈ text.getLast?, ¬ Opener ch

theorem not_opener_of_isletter {ch : UInt8} (letter : isletter ch = true) : ¬ Opener ch := by
  rintro (rfl | rfl | rfl) <;> exact absurd letter (by decide)

theorem IsName.spelled {name : List UInt8} (isName : IsName name) : Spelled name where
  chain := by
    apply List.Pairwise.isChain
    apply List.pairwise_of_forall_mem_list
    intro first member second _ opens
    exact absurd opens (not_opener_of_isletter (isName.letters first member))
  plain := ⟨fun member => absurd (isName.letters _ member) (by decide),
    fun member => absurd (isName.letters _ member) (by decide)⟩
  starts := by
    cases name with
    | nil => exact absurd isName id
    | cons ch name => exact ⟨ch, rfl, isName.1⟩
  ends := fun ch member =>
    not_opener_of_isletter (isName.letters ch (List.mem_of_mem_getLast? member))

namespace Spelled

variable {text rest : List UInt8}

theorem starts_append (spelled : Spelled text) (rest : List UInt8) :
    ∃ ch ∈ (text ++ rest).head?, isalnum ch = true := by
  obtain ⟨ch, head, alnum⟩ := spelled.starts
  refine ⟨ch, ?_, alnum⟩
  rw [Option.mem_def] at head ⊢
  rw [List.head?_append, head, Option.some_or]

theorem chain_append (spelled : Spelled text) (others : rest.IsChain Precedes) :
    (text ++ rest).IsChain Precedes :=
  spelled.chain.append others fun ch last _ _ opens => absurd opens (spelled.ends ch last)

theorem join (spelled : Spelled text) (others : Spelled rest) {ch : UInt8} (opens : Opener ch) :
    Spelled (text ++ ch :: rest) where
  chain := by
    apply spelled.chain_append
    apply others.chain.cons
    intro next head _
    obtain ⟨first, starts, alnum⟩ := others.starts
    rw [Option.mem_unique head starts]
    exact alnum
  plain := by
    have apart : ch ≠ underscore ∧ ch ≠ dollar := by
      obtain rfl | rfl | rfl := opens <;> decide
    simp [spelled.plain, others.plain, apart.1.symm, apart.2.symm]
  starts := spelled.starts_append _
  ends := by
    intro last member
    apply others.ends last
    obtain ⟨first, starts, _⟩ := others.starts
    cases rest with
    | nil => cases starts
    | cons second rest =>
        rw [List.getLast?_append_of_ne_nil _ (by simp), List.getLast?_cons_cons] at member
        exact member

theorem close (spelled : Spelled text) : Spelled (text ++ [parenClose]) where
  chain := spelled.chain_append (.singleton parenClose)
  plain := by
    have apart : underscore ≠ parenClose ∧ dollar ≠ parenClose := by decide
    simp [spelled.plain, apart]
  starts := spelled.starts_append _
  ends := by
    intro last member
    rw [List.getLast?_append_of_ne_nil _ (by simp), List.getLast?_singleton] at member
    obtain rfl := Option.some.inj member
    rintro (same | same | same) <;> exact absurd same (by decide)

end Spelled

mutual

theorem Derives.spelled {tree : ClassTree} {text : List UInt8} : Derives tree text → Spelled text
  | .bare isName => isName.spelled
  | .applied isName inside => isName.spelled.join inside.spelled.close (.inl rfl)

theorem DerivesArguments.spelled {trees : List ClassTree} {text : List UInt8} :
    DerivesArguments trees text → Spelled text
  | .last derives => derives.spelled
  | .more derives separates others => by
      apply derives.spelled.join others.spelled
      obtain rfl | ⟨rfl, _⟩ := separates
      · exact .inr (.inl rfl)
      · exact .inr (.inr rfl)

end

theorem infix_applied (name arguments : List UInt8) : arguments <:+: applied name arguments :=
  ⟨name ++ [parenOpen], [parenClose], by simp [applied]⟩

namespace MarshalType

mutual

/-- A text without illegal characters or empty names is made up of tokens. -/
theorem legible_of_clean : ∀ type : MarshalType, Clean type.text → type.Legible
  | .scalar _, _ => by rw [Legible]; trivial
  | .custom className, clean => by
      rw [text] at clean
      rw [Legible]
      exact clean.plain
  | .list valueType, clean => by
      rw [text] at clean
      rw [Legible]
      exact legible_of_clean valueType (clean.part (infix_applied _ _))
  | .map keyType valueType, clean => by
      rw [text] at clean
      rw [Legible]
      have inside := clean.part (infix_applied _ _)
      exact ⟨legible_of_clean keyType (inside.part (List.prefix_append _ _).isInfix),
        legible_of_clean valueType (inside.part ⟨keyType.text ++ [comma], [], by simp⟩)⟩
  | .set valueType, clean => by
      rw [text] at clean
      rw [Legible]
      exact legible_of_clean valueType (clean.part (infix_applied _ _))
  | .tuple types, clean => by
      rw [text] at clean
      rw [Legible]
      refine ⟨?_, allLegible_of_clean types (clean.part (infix_applied _ _))⟩
      rintro rfl
      have next := @Clean.next _ (marshal "TupleType") [] parenOpen parenClose clean rfl (.inl rfl)
      exact absurd next (by decide)
  | .userType keyspace typeName fields, clean => by
      rw [text] at clean
      rw [Legible]
      have inside := clean.part (infix_applied _ _)
      refine ⟨fun member => inside.plain.1 (List.mem_append_left _ member), ?_,
        fieldsLegible_of_clean fields (inside.part ⟨keyspace.text ++ comma :: hex typeName, [],
          by simp⟩)⟩
      rintro rfl
      cases fields with
      | nil =>
          have next := @Clean.next _ (marshal "UserType" ++ parenOpen :: keyspace.text) [] comma
            parenClose clean (by simp [applied, hex, fieldTexts]) (.inr (.inl rfl))
          exact absurd next (by decide)
      | cons field fields =>
          obtain ⟨others, starts⟩ : ∃ others, fieldTexts (field :: fields) = comma :: others :=
            ⟨_, by rw [fieldTexts]⟩
          have next := @Clean.next _ keyspace.text others comma comma inside
            (by simp [hex, starts]) (.inr (.inl rfl))
          exact absurd next (by decide)
  | .frozen type, clean => by
      rw [text] at clean
      rw [Legible]
      exact legible_of_clean type (clean.part (infix_applied _ _))
  | .reversed type, clean => by
      rw [text] at clean
      rw [Legible]
      exact legible_of_clean type (clean.part (infix_applied _ _))

theorem allLegible_of_clean : ∀ types : List MarshalType, Clean (texts types) → AllLegible types
  | [], _ => by rw [AllLegible]; trivial
  | type :: types, clean => by
      rw [texts] at clean
      rw [AllLegible]
      refine ⟨legible_of_clean type (clean.part (List.prefix_append _ _).isInfix),
        allLegible_of_clean types (clean.part ?_)⟩
      cases types with
      | nil => exact List.nil_infix
      | cons next types => exact ⟨type.text ++ [comma], [], by simp⟩

theorem fieldsLegible_of_clean : ∀ fields : List (List UInt8 × MarshalType),
    Clean (fieldTexts fields) → FieldsLegible fields
  | [], _ => by rw [FieldsLegible]; trivial
  | (name, type) :: fields, clean => by
      rw [fieldTexts] at clean
      rw [FieldsLegible]
      refine ⟨?_, legible_of_clean type (clean.part ⟨comma :: hex name ++ [colon],
        fieldTexts fields, by simp⟩), fieldsLegible_of_clean fields (clean.part
          ⟨comma :: hex name ++ colon :: type.text, [], by simp⟩)⟩
      rintro rfl
      have next := @Clean.next _ [] (type.text ++ fieldTexts fields) comma colon clean rfl
        (.inr (.inl rfl))
      exact absurd next (by decide)

end

/-- Every parenthesis is closed, and there is no NUL. -/
structure Closed (text : List UInt8) : Prop where
  nesting : nesting text = 0
  zero : 0 ∉ text

theorem Closed.applied {name arguments : List UInt8} (outside : Closed name)
    (inside : Closed arguments) : Closed (applied name arguments) where
  nesting := by
    rw [PhpDriver.applied, nesting_append, nesting_open, nesting_append, outside.nesting,
      inside.nesting]
    decide
  zero := by
    have apart : (0 : UInt8) ≠ parenOpen ∧ (0 : UInt8) ≠ parenClose := by decide
    simp [PhpDriver.applied, outside.zero, inside.zero, apart]

theorem Closed.append {text rest : List UInt8} (first : Closed text) (others : Closed rest) :
    Closed (text ++ rest) where
  nesting := by rw [nesting_append, first.nesting, others.nesting, Int.zero_add]
  zero := by simp [first.zero, others.zero]

theorem closed_of_chars {text : List UInt8}
    (chars : ∀ ch ∈ text, isletter ch = true ∨ ch = underscore ∨ ch = dollar ∨ ch = comma ∨
      ch = colon) : Closed text := by
  induction text with
  | nil => exact ⟨rfl, List.not_mem_nil⟩
  | cons ch text ih =>
      rw [List.forall_mem_cons] at chars
      have rest := ih chars.2
      have apart : ch ≠ parenOpen ∧ ch ≠ parenClose ∧ ch ≠ 0 := by
        obtain letter | rfl | rfl | rfl | rfl := chars.1
        · refine ⟨?_, ?_, ?_⟩ <;> rintro rfl <;> exact absurd letter (by decide)
        all_goals decide
      refine ⟨?_, by simp [rest.zero, apart.2.2.symm]⟩
      rw [nesting_cons_of_ne apart.1 apart.2.1, rest.nesting]

theorem closed_comma {text : List UInt8} (closed : Closed text) : Closed (comma :: text) :=
  (@closed_of_chars [comma] (by simp)).append closed

theorem closed_colon {text : List UInt8} (closed : Closed text) : Closed (colon :: text) :=
  (@closed_of_chars [colon] (by simp)).append closed

theorem closed_name {name : List UInt8} (isName : IsName name) : Closed name :=
  closed_of_chars fun ch member => .inl (isName.letters ch member)

theorem closed_marshal {name : String} (letters : ∀ ch ∈ ascii name, isletter ch = true)
    {arguments : List UInt8} (inside : Closed arguments) :
    Closed (PhpDriver.applied (marshal name) arguments) :=
  (closed_name (isName_marshal letters)).applied inside

theorem closed_hex (bytes : List UInt8) : Closed (hex bytes) :=
  closed_of_chars fun ch member => .inl (by simp [isletter, isalnum_hex bytes ch member])

theorem closed_keyspace (keyspace : KeyspaceName) : Closed keyspace.text := by
  apply closed_of_chars
  intro ch member
  obtain alnum | rfl := keyspace.chars ch member
  · exact .inl (by simp [isletter, alnum])
  · exact .inr (.inl rfl)

theorem closed_className (className : ClassName) : Closed className.text := by
  apply closed_of_chars
  intro ch member
  obtain letter | rfl | rfl := className.chars ch member
  · exact .inl letter
  · exact .inr (.inl rfl)
  · exact .inr (.inr (.inl rfl))

mutual

theorem closed_text : ∀ type : MarshalType, Closed type.text
  | .scalar type => by
      rw [text]
      exact closed_name type.isName
  | .custom className => by
      rw [text]
      exact closed_className className
  | .list valueType => by
      rw [text]
      exact closed_marshal (by decide +kernel) (closed_text valueType)
  | .map keyType valueType => by
      rw [text]
      exact closed_marshal (by decide +kernel)
        ((closed_text keyType).append (closed_comma (closed_text valueType)))
  | .set valueType => by
      rw [text]
      exact closed_marshal (by decide +kernel) (closed_text valueType)
  | .tuple types => by
      rw [text]
      exact closed_marshal (by decide +kernel) (closed_texts types)
  | .userType keyspace typeName fields => by
      rw [text]
      exact closed_marshal (by decide +kernel) ((closed_keyspace keyspace).append
        (closed_comma ((closed_hex typeName).append (closed_fieldTexts fields))))
  | .frozen type => by
      rw [text]
      exact closed_marshal (by decide +kernel) (closed_text type)
  | .reversed type => by
      rw [text]
      exact closed_marshal (by decide +kernel) (closed_text type)

theorem closed_texts : ∀ types : List MarshalType, Closed (texts types)
  | [] => by
      rw [texts]
      exact closed_of_chars (by simp)
  | type :: types => by
      rw [texts]
      apply (closed_text type).append
      split
      · exact closed_of_chars (by simp)
      · exact closed_comma (closed_texts types)

theorem closed_fieldTexts : ∀ fields : List (List UInt8 × MarshalType), Closed (fieldTexts fields)
  | [] => by
      rw [fieldTexts]
      exact closed_of_chars (by simp)
  | (name, type) :: fields => by
      rw [fieldTexts]
      exact closed_comma ((closed_hex name).append
        (closed_colon ((closed_text type).append (closed_fieldTexts fields))))

end

def Formed (text : List UInt8) : Prop :=
  (∀ ch ∈ text, ¬ Opener ch ∧ ch ≠ parenClose) ∨
    ∃ name arguments, IsName name ∧ text = name ++ parenOpen :: arguments

theorem formed_marshal {name : String} (letters : ∀ ch ∈ ascii name, isletter ch = true)
    (arguments : List UInt8) : Formed (PhpDriver.applied (marshal name) arguments) :=
  .inr ⟨marshal name, arguments ++ [parenClose], isName_marshal letters, rfl⟩

theorem formed_text (type : MarshalType) : Formed type.text := by
  cases type with
  | scalar type =>
      rw [text]
      refine .inl fun ch member => ⟨not_opener_of_isletter (type.isName.letters ch member), ?_⟩
      rintro rfl
      exact absurd (type.isName.letters _ member) (by decide)
  | custom className =>
      rw [text]
      refine .inl fun ch member => ?_
      obtain letter | rfl | rfl := className.chars ch member
      · refine ⟨not_opener_of_isletter letter, ?_⟩
        rintro rfl
        exact absurd letter (by decide)
      all_goals
        refine ⟨?_, by decide⟩
        rintro (same | same | same) <;> exact absurd same (by decide)
  | _ =>
      rw [text]
      exact formed_marshal (by decide +kernel) _

/-- Of what stands before the first character that is no letter. -/
theorem separator_unique {name other rest arguments : List UInt8} {ch : UInt8}
    (isName : IsName name) (isOther : IsName other) (outside : isletter ch = false)
    (same : name ++ ch :: rest = other ++ parenOpen :: arguments) : ch = parenOpen := by
  have dropped := congrArg (List.dropWhile isletter) same
  rw [List.dropWhile_append_of_pos isName.letters, List.dropWhile_append_of_pos isOther.letters,
    List.dropWhile_cons_of_neg (by simp [outside]),
    List.dropWhile_cons_of_neg (by decide)] at dropped
  exact (List.cons.inj dropped).1

theorem Formed.separator {name rest : List UInt8} {ch : UInt8}
    (formed : Formed (name ++ ch :: rest)) (isName : IsName name)
    (separates : Opener ch ∨ ch = parenClose) : ch = parenOpen := by
  have outside : isletter ch = false := by
    obtain (rfl | rfl | rfl) | rfl := separates <;> decide
  obtain word | ⟨other, arguments, isOther, same⟩ := formed
  · have apart := word ch (by simp)
    exact absurd separates (not_or.mpr apart)
  · exact separator_unique isName isOther outside same

theorem not_misparsed (type : MarshalType) : ¬ Misparsed type.text := by
  intro misparsed
  have formed := formed_text type
  have closed := closed_text type
  generalize type.text = validator at misparsed formed closed
  cases misparsed with
  | separator isName separates rest =>
      have same := formed.separator isName (.inl (.inr separates))
      obtain rfl | rfl := separates <;> exact absurd same (by decide)
  | close isName ends => exact absurd (formed.separator isName (.inr rfl)) (by decide)
  | @ends stack tree before text rest opens derives ends =>
      obtain ⟨unclosed, rfl⟩ | zero := ends
      · have open_ := closed.nesting
        rw [nesting_append, nesting_append, opens.nesting, derives.nesting, nesting_nil] at open_
        cases stack with
        | nil => exact unclosed rfl
        | cons frame stack =>
            rw [List.length_cons] at open_
            omega
      · exact closed.zero (by simp [List.mem_of_mem_head? zero])

theorem legible_of_success (type : MarshalType) {nodes : List ParseNode}
    (success : parseClassName type.text = .success nodes) : type.Legible := by
  obtain ⟨tree, derives⟩ :=
    ((parsesByGrammar_iff type.text).mpr type.not_misparsed).derives success
  exact legible_of_clean type derives.spelled.toClean

def IsDenoted (type : MarshalType) : Prop :=
  parseColumnType type.text = .success type.outerReversed type.outerFrozen type.type

theorem legible_of_isDenoted {type : MarshalType} (denoted : type.IsDenoted) : type.Legible := by
  rw [IsDenoted, parseColumnType] at denoted
  cases parsed : parseClassName type.text with
  | success nodes => exact legible_of_success type parsed
  | failure error =>
      rw [parsed] at denoted
      cases denoted
  | nullDereference =>
      rw [parsed] at denoted
      cases denoted

/-- The text has to be made up of tokens, and its nodes have to say which type it is. -/
theorem isDenoted_iff (type : MarshalType) :
    type.IsDenoted ↔ type.Legible ∧ type.Distinct true := by
  constructor
  · intro denoted
    have legible := legible_of_isDenoted denoted
    rw [IsDenoted, parseColumnType_derives (type.derives legible)] at denoted
    exact ⟨legible, (columnType_tree type false false).mp (by simpa using denoted)⟩
  · rintro ⟨legible, distinct⟩
    rw [IsDenoted, parseColumnType_derives (type.derives legible)]
    simpa using (columnType_tree type false false).mpr distinct

def underscored : KeyspaceName where
  text := ascii "my_ks"
  nonempty := by decide
  chars := by decide +kernel

theorem underscored_keyspace_is_not_denoted :
    ¬ (userType underscored (ascii "t") [(ascii "id", .scalar .int)]).IsDenoted := by
  intro denoted
  have legible := legible_of_isDenoted denoted
  rw [Legible] at legible
  exact absurd legible.1 (by decide +kernel)

end MarshalType

end PhpDriver
