import PhpDriver.Data.Lexicographic
import PhpDriver.Types

namespace PhpDriver

open Data

/-! `php_driver_type_compare` as an order. It reads a type as a row of marks and compares
rows lexicographically; all that can go wrong goes wrong between two marks. -/

inductive TypeMark where
  | code (valueType : Nat)
  | count (elements : Nat)
  | name (bytes : List UInt8)

def TypeMark.rank : TypeMark → Nat
  | .code _ => 0
  | .count _ => 1
  | .name _ => 2

def markCompare : TypeMark → TypeMark → Int
  | .code first, .code second => valueTypeCompare first second
  | .count first, .count second => compareNat first second
  | .name first, .name second => stringCompare first second
  | first, second => compareNat first.rank second.rank

namespace CassType

mutual

def marks : CassType → List TypeMark
  | .scalar type => [.code type.valueType]
  | .custom className => [.code (CassType.custom className).valueType]
  | .list valueType => .code (CassType.list valueType).valueType :: marks valueType
  | .map keyType valueType =>
      .code (CassType.map keyType valueType).valueType :: (marks keyType ++ marks valueType)
  | .set valueType => .code (CassType.set valueType).valueType :: marks valueType
  | .tuple types =>
      .code (CassType.tuple types).valueType :: .count types.length :: elementMarks types
  | .userType types =>
      .code (CassType.userType types).valueType :: .count types.length :: fieldMarks types

def elementMarks : List CassType → List TypeMark
  | [] => []
  | type :: types => marks type ++ elementMarks types

def fieldMarks : List (List UInt8 × CassType) → List TypeMark
  | [] => []
  | (name, type) :: types => .name name :: (marks type ++ fieldMarks types)

end

end CassType

theorem valueTypeCompare_self (valueType : Nat) : valueTypeCompare valueType valueType = 0 := by
  simp [valueTypeCompare]

theorem compareNat_self (number : Nat) : compareNat number number = 0 :=
  compareNat_eq_zero_iff.mpr rfl

theorem compareNat_swap (first second : Nat) :
    compareNat second first = -compareNat first second := by
  grind [compareNat]

theorem valueTypeCompare_swap (first second : Nat) :
    valueTypeCompare second first = -valueTypeCompare first second := by
  grind [valueTypeCompare, compareNat]

theorem memcmp_swap (first second : List UInt8) : memcmp second first = -memcmp first second := by
  induction first generalizing second with
  | nil => cases second <;> rfl
  | cons head rest ih =>
      cases second with
      | nil => rfl
      | cons other others =>
          rw [memcmp, memcmp]
          by_cases same : head = other
          · rw [if_pos same, if_pos same.symm, ih]
          · rw [if_neg same, if_neg (Ne.symm same), compareNat_swap]

theorem stringCompare_swap (first second : List UInt8) :
    stringCompare second first = -stringCompare first second := by
  by_cases lengths : first.length = second.length
  · simp [stringCompare, lengths, memcmp_swap first second]
  · rw [stringCompare, stringCompare, if_pos lengths, if_pos (Ne.symm lengths), compareNat_swap]

theorem markCompare_self (mark : TypeMark) : markCompare mark mark = 0 := by
  cases mark with
  | code valueType => exact valueTypeCompare_self valueType
  | count elements => exact compareNat_self elements
  | name bytes => exact stringCompare_eq_zero_iff.mpr rfl

theorem markCompare_swap (first second : TypeMark) :
    markCompare second first = -markCompare first second := by
  cases first with
  | code valueType =>
      cases second with
      | code other => exact valueTypeCompare_swap valueType other
      | _ => rfl
  | count elements =>
      cases second with
      | count others => exact compareNat_swap elements others
      | _ => rfl
  | name bytes =>
      cases second with
      | name others => exact stringCompare_swap bytes others
      | _ => rfl

private theorem lexCompare_marks_of_code {first second : CassType}
    (codes : typeCompare first second = valueTypeCompare first.valueType second.valueType)
    (differ : typeCompare first second ≠ 0) (marks others : List TypeMark) :
    lexCompare markCompare (first.marks ++ marks) (second.marks ++ others) =
      thenCompare (typeCompare first second) (lexCompare markCompare marks others) := by
  have starts (type : CassType) : ∃ rest, type.marks = .code type.valueType :: rest := by
    cases type <;> exact ⟨_, rfl⟩
  obtain ⟨firstRest, firstMarks⟩ := starts first
  obtain ⟨secondRest, secondMarks⟩ := starts second
  rw [firstMarks, secondMarks, List.cons_append, List.cons_append, lexCompare, markCompare,
    ← codes, thenCompare_of_ne_zero differ, thenCompare_of_ne_zero differ]

mutual

theorem lexCompare_marks : ∀ (first second : CassType) (marks others : List TypeMark),
    lexCompare markCompare (first.marks ++ marks) (second.marks ++ others) =
      thenCompare (typeCompare first second) (lexCompare markCompare marks others)
  | .scalar first, second, marks, others => by
      cases second with
      | scalar second =>
          rw [CassType.marks, CassType.marks]
          rfl
      | _ =>
          apply lexCompare_marks_of_code rfl
          simp [typeCompare_eq_zero_iff, CassType.canonical]
  | .custom className, second, marks, others => by
      cases second with
      | custom other => rfl
      | _ =>
          apply lexCompare_marks_of_code rfl
          simp [typeCompare_eq_zero_iff, CassType.canonical]
  | .list first, second, marks, others => by
      cases second with
      | list second => exact lexCompare_marks first second marks others
      | _ =>
          apply lexCompare_marks_of_code rfl
          simp [typeCompare_eq_zero_iff, CassType.canonical]
  | .map firstKey firstValue, second, marks, others => by
      cases second with
      | map secondKey secondValue =>
          have keys := lexCompare_marks firstKey secondKey (firstValue.marks ++ marks)
            (secondValue.marks ++ others)
          have values := lexCompare_marks firstValue secondValue marks others
          have compared : typeCompare (.map firstKey firstValue) (.map secondKey secondValue) =
              thenCompare (typeCompare firstKey secondKey) (typeCompare firstValue secondValue) :=
            rfl
          rw [compared, thenCompare_assoc, ← values, ← keys]
          simp [CassType.marks, lexCompare, markCompare, CassType.valueType, valueTypeCompare]
      | _ =>
          apply lexCompare_marks_of_code rfl
          simp [typeCompare_eq_zero_iff, CassType.canonical]
  | .set first, second, marks, others => by
      cases second with
      | set second => exact lexCompare_marks first second marks others
      | _ =>
          apply lexCompare_marks_of_code rfl
          simp [typeCompare_eq_zero_iff, CassType.canonical]
  | .tuple first, second, marks, others => by
      cases second with
      | tuple second =>
          have compared : lexCompare markCompare ((CassType.tuple first).marks ++ marks)
              ((CassType.tuple second).marks ++ others) =
              thenCompare (compareNat first.length second.length)
                (lexCompare markCompare (CassType.elementMarks first ++ marks)
                  (CassType.elementMarks second ++ others)) := rfl
          rw [compared, typeCompare]
          split
          · rename_i differ
            have decided : compareNat first.length second.length ≠ 0 := by
              rwa [ne_eq, compareNat_eq_zero_iff]
            rw [thenCompare_of_ne_zero decided, thenCompare_of_ne_zero decided]
          · rename_i same
            rw [ne_eq, Decidable.not_not] at same
            rw [compareNat_eq_zero_iff.mpr same, thenCompare_zero_left,
              lexCompare_elementMarks first second same]
      | _ =>
          apply lexCompare_marks_of_code rfl
          simp [typeCompare_eq_zero_iff, CassType.canonical]
  | .userType first, second, marks, others => by
      cases second with
      | userType second =>
          have compared : lexCompare markCompare ((CassType.userType first).marks ++ marks)
              ((CassType.userType second).marks ++ others) =
              thenCompare (compareNat first.length second.length)
                (lexCompare markCompare (CassType.fieldMarks first ++ marks)
                  (CassType.fieldMarks second ++ others)) := rfl
          rw [compared, typeCompare]
          split
          · rename_i differ
            have decided : compareNat first.length second.length ≠ 0 := by
              rwa [ne_eq, compareNat_eq_zero_iff]
            rw [thenCompare_of_ne_zero decided, thenCompare_of_ne_zero decided]
          · rename_i same
            rw [ne_eq, Decidable.not_not] at same
            rw [compareNat_eq_zero_iff.mpr same, thenCompare_zero_left,
              lexCompare_fieldMarks first second same]
      | _ =>
          apply lexCompare_marks_of_code rfl
          simp [typeCompare_eq_zero_iff, CassType.canonical]

theorem lexCompare_elementMarks : ∀ first second : List CassType,
    first.length = second.length → ∀ marks others : List TypeMark,
      lexCompare markCompare (CassType.elementMarks first ++ marks)
          (CassType.elementMarks second ++ others) =
        thenCompare (tupleCompare first second) (lexCompare markCompare marks others)
  | [], [], _, _, _ => rfl
  | first :: restFirst, second :: restSecond, sameLength, marks, others => by
      have rest := lexCompare_elementMarks restFirst restSecond (Nat.succ.inj sameLength)
      have compared : tupleCompare (first :: restFirst) (second :: restSecond) =
          thenCompare (typeCompare first second) (tupleCompare restFirst restSecond) := rfl
      rw [CassType.elementMarks, CassType.elementMarks, List.append_assoc, List.append_assoc,
        lexCompare_marks first second, rest, compared, thenCompare_assoc]
  | [], _ :: _, sameLength, _, _ => nomatch sameLength
  | _ :: _, [], sameLength, _, _ => nomatch sameLength

theorem lexCompare_fieldMarks : ∀ first second : List (List UInt8 × CassType),
    first.length = second.length → ∀ marks others : List TypeMark,
      lexCompare markCompare (CassType.fieldMarks first ++ marks)
          (CassType.fieldMarks second ++ others) =
        thenCompare (userTypeCompare first second) (lexCompare markCompare marks others)
  | [], [], _, _, _ => rfl
  | (firstKey, first) :: restFirst, (secondKey, second) :: restSecond, sameLength, marks,
      others => by
      have rest := lexCompare_fieldMarks restFirst restSecond (Nat.succ.inj sameLength)
      have compared : userTypeCompare ((firstKey, first) :: restFirst)
          ((secondKey, second) :: restSecond) =
          thenCompare (stringCompare firstKey secondKey)
            (thenCompare (typeCompare first second) (userTypeCompare restFirst restSecond)) := rfl
      rw [CassType.fieldMarks, CassType.fieldMarks, List.cons_append, List.cons_append,
        List.append_assoc, List.append_assoc, lexCompare, lexCompare_marks first second, rest,
        compared, thenCompare_assoc, thenCompare_assoc, markCompare]
  | [], _ :: _, sameLength, _, _ => nomatch sameLength
  | _ :: _, [], sameLength, _, _ => nomatch sameLength

end

theorem typeCompare_eq_lexCompare (first second : CassType) :
    typeCompare first second = lexCompare markCompare first.marks second.marks := by
  simpa [lexCompare] using (lexCompare_marks first second [] []).symm

/-! Whatever the types, a comparison turned round changes its sign. -/

theorem typeCompare_self (type : CassType) : typeCompare type type = 0 := by
  rw [typeCompare_eq_lexCompare, lexCompare_self markCompare_self]

theorem typeCompare_swap (first second : CassType) :
    typeCompare second first = -typeCompare first second := by
  rw [typeCompare_eq_lexCompare, typeCompare_eq_lexCompare, lexCompare_swap markCompare_swap]

/-! The order is that of the leaves a type is made of. -/

namespace CassType

mutual

def leaves : CassType → List CassType
  | .scalar type => [.scalar type]
  | .custom className => [.custom className]
  | .list valueType => leaves valueType
  | .map keyType valueType => leaves keyType ++ leaves valueType
  | .set valueType => leaves valueType
  | .tuple types => elementLeaves types
  | .userType types => fieldLeaves types

def elementLeaves : List CassType → List CassType
  | [] => []
  | type :: types => leaves type ++ elementLeaves types

def fieldLeaves : List (List UInt8 × CassType) → List CassType
  | [] => []
  | (_, type) :: types => leaves type ++ fieldLeaves types

end

def Over (vocabulary : CassType → Prop) (type : CassType) : Prop :=
  ∀ leaf ∈ type.leaves, vocabulary leaf

end CassType

def Marked (vocabulary : CassType → Prop) : TypeMark → Prop
  | .code valueType =>
      0x20 ≤ valueType ∨ ∃ leaf, vocabulary leaf ∧ leaf.valueType = valueType
  | _ => True

theorem Marked.mono {vocabulary wider : CassType → Prop}
    (includes : ∀ leaf, vocabulary leaf → wider leaf) {mark : TypeMark}
    (marked : Marked vocabulary mark) : Marked wider mark := by
  cases mark with
  | code valueType =>
      exact marked.imp_right fun ⟨leaf, known, code⟩ => ⟨leaf, includes leaf known, code⟩
  | count elements | name bytes => trivial

mutual

theorem marked_of_mem_marks : ∀ (type : CassType) {mark : TypeMark}, mark ∈ type.marks →
    Marked (· ∈ type.leaves) mark
  | .scalar type, mark, member => by
      obtain rfl := List.mem_singleton.mp member
      exact Or.inr ⟨_, List.mem_singleton_self _, rfl⟩
  | .custom className, mark, member => by
      obtain rfl := List.mem_singleton.mp member
      exact Or.inr ⟨_, List.mem_singleton_self _, rfl⟩
  | .list valueType, mark, member => by
      rcases List.mem_cons.mp member with rfl | inner
      · exact Or.inl (Nat.le_refl _)
      · exact marked_of_mem_marks valueType inner
  | .map keyType valueType, mark, member => by
      rcases List.mem_cons.mp member with rfl | inner
      · exact Or.inl (Nat.le_succ _)
      · rcases List.mem_append.mp inner with key | value
        · exact (marked_of_mem_marks keyType key).mono fun leaf => List.mem_append_left _
        · exact (marked_of_mem_marks valueType value).mono fun leaf => List.mem_append_right _
  | .set valueType, mark, member => by
      rcases List.mem_cons.mp member with rfl | inner
      · exact Or.inl (by simp [CassType.valueType])
      · exact marked_of_mem_marks valueType inner
  | .tuple types, mark, member => by
      rcases List.mem_cons.mp member with rfl | inner
      · exact Or.inl (by simp [CassType.valueType])
      · rcases List.mem_cons.mp inner with rfl | inner
        · trivial
        · exact marked_of_mem_elementMarks types inner
  | .userType types, mark, member => by
      rcases List.mem_cons.mp member with rfl | inner
      · exact Or.inl (by simp [CassType.valueType])
      · rcases List.mem_cons.mp inner with rfl | inner
        · trivial
        · exact marked_of_mem_fieldMarks types inner

theorem marked_of_mem_elementMarks : ∀ (types : List CassType) {mark : TypeMark},
    mark ∈ CassType.elementMarks types → Marked (· ∈ CassType.elementLeaves types) mark
  | [], _, member => nomatch member
  | type :: types, mark, member => by
      rcases List.mem_append.mp member with head | tail
      · exact (marked_of_mem_marks type head).mono fun leaf => List.mem_append_left _
      · exact (marked_of_mem_elementMarks types tail).mono fun leaf => List.mem_append_right _

theorem marked_of_mem_fieldMarks : ∀ (types : List (List UInt8 × CassType)) {mark : TypeMark},
    mark ∈ CassType.fieldMarks types → Marked (· ∈ CassType.fieldLeaves types) mark
  | [], _, member => nomatch member
  | (name, type) :: types, mark, member => by
      rcases List.mem_cons.mp member with rfl | inner
      · trivial
      · rcases List.mem_append.mp inner with head | tail
        · exact (marked_of_mem_marks type head).mono fun leaf => List.mem_append_left _
        · exact (marked_of_mem_fieldMarks types tail).mono fun leaf => List.mem_append_right _

end

def Interleaved (vocabulary : CassType → Prop) : Prop :=
  vocabulary (.scalar .text) ∧ vocabulary (.scalar .varchar) ∧
    (vocabulary (.scalar .timestamp) ∨ vocabulary (.scalar .uuid))

theorem eq_scalar_of_valueType {leaf : CassType} {type : ScalarType}
    (code : leaf.valueType = type.valueType) : leaf = .scalar type := by
  cases leaf with
  | scalar other =>
      rw [CassType.scalar.injEq]
      revert code
      cases other <;> cases type <;> decide
  | custom className => exact absurd code.symm (scalar_valueType_ne type (Or.inl rfl))
  | _ => exact absurd code.symm (scalar_valueType_ne type (by simp [CassType.valueType]))

theorem marked_scalar_iff {vocabulary : CassType → Prop} (type : ScalarType) :
    Marked vocabulary (.code type.valueType) ↔ vocabulary (.scalar type) := by
  constructor
  · rintro (container | ⟨leaf, known, code⟩)
    · exact absurd rfl (scalar_valueType_ne type (Or.inr container))
    · rwa [← eq_scalar_of_valueType code]
  · intro known
    exact Or.inr ⟨_, known, rfl⟩

theorem valueTypeCompare_trans {holds : Nat → Prop}
    (apart : ¬ (holds ScalarType.text.valueType ∧ holds ScalarType.varchar.valueType ∧
      (holds ScalarType.timestamp.valueType ∨ holds ScalarType.uuid.valueType)))
    {first second third : Nat} (firstHolds : holds first) (secondHolds : holds second)
    (thirdHolds : holds third) (lower : valueTypeCompare first second ≤ 0)
    (upper : valueTypeCompare second third ≤ 0) : valueTypeCompare first third ≤ 0 := by
  grind [valueTypeCompare, isStringType, compareNat, ScalarType.valueType]

theorem compareNat_trans {first second third : Nat} (lower : compareNat first second ≤ 0)
    (upper : compareNat second third ≤ 0) : compareNat first third ≤ 0 := by
  grind [compareNat]

theorem memcmp_trans {first second third : List UInt8} (lengths : first.length = second.length)
    (others : second.length = third.length) (lower : memcmp first second ≤ 0)
    (upper : memcmp second third ≤ 0) : memcmp first third ≤ 0 := by
  induction first generalizing second third with
  | nil => cases third <;> exact Int.le_refl 0
  | cons head rest ih =>
      cases second with
      | nil => cases lengths
      | cons middle middles =>
          cases third with
          | nil => cases others
          | cons last lasts =>
              have through := @ih middles lasts (Nat.succ.inj lengths) (Nat.succ.inj others)
              have bytes (first second : UInt8) : first.toNat = second.toNat ↔ first = second :=
                UInt8.toNat_inj
              grind [memcmp, compareNat]

theorem stringCompare_trans {first second third : List UInt8}
    (lower : stringCompare first second ≤ 0) (upper : stringCompare second third ≤ 0) :
    stringCompare first third ≤ 0 := by
  have through (lengths : first.length = second.length) (others : second.length = third.length) :=
    memcmp_trans lengths others
  grind [stringCompare, compareNat]

theorem rank_le_of_markCompare {first second : TypeMark} (lower : markCompare first second ≤ 0) :
    first.rank ≤ second.rank := by
  cases first <;> cases second <;>
    first | exact Nat.le_refl _ | simp_all [markCompare, compareNat, TypeMark.rank]

theorem markCompare_of_rank_lt {first second : TypeMark} (below : first.rank < second.rank) :
    markCompare first second = -1 := by
  cases first <;> cases second <;>
    first
    | exact absurd below (Nat.lt_irrefl _)
    | simp_all [markCompare, compareNat, TypeMark.rank]

theorem markCompare_trans {vocabulary : CassType → Prop} (apart : ¬ Interleaved vocabulary)
    (first second third : TypeMark) (firstMarked : Marked vocabulary first)
    (secondMarked : Marked vocabulary second) (thirdMarked : Marked vocabulary third)
    (lower : markCompare first second ≤ 0) (upper : markCompare second third ≤ 0) :
    markCompare first third ≤ 0 := by
  have ranks := Nat.le_trans (rank_le_of_markCompare lower) (rank_le_of_markCompare upper)
  rcases Nat.lt_or_eq_of_le ranks with below | same
  · rw [markCompare_of_rank_lt below]
    decide
  · cases first with
    | code valueType =>
        cases third with
        | code last =>
            cases second with
            | code other =>
                refine @valueTypeCompare_trans (fun code => Marked vocabulary (.code code)) ?_
                  _ _ _ firstMarked secondMarked thirdMarked lower upper
                simp only [marked_scalar_iff]
                exact apart
            | _ => simp [markCompare, compareNat, TypeMark.rank] at upper
        | _ => cases same
    | count elements =>
        cases third with
        | count last =>
            cases second with
            | count other => exact compareNat_trans lower upper
            | code other => simp [markCompare, compareNat, TypeMark.rank] at lower
            | name other => simp [markCompare, compareNat, TypeMark.rank] at upper
        | _ => cases same
    | name bytes =>
        cases third with
        | name last =>
            cases second with
            | name other => exact stringCompare_trans lower upper
            | _ => simp [markCompare, compareNat, TypeMark.rank] at lower
        | _ => cases same

theorem typeCompare_trans {vocabulary : CassType → Prop} (apart : ¬ Interleaved vocabulary)
    {first second third : CassType} (firstOver : first.Over vocabulary)
    (secondOver : second.Over vocabulary) (thirdOver : third.Over vocabulary)
    (lower : typeCompare first second ≤ 0) (upper : typeCompare second third ≤ 0) :
    typeCompare first third ≤ 0 := by
  rw [typeCompare_eq_lexCompare] at lower upper ⊢
  have marked {type : CassType} (within : type.Over vocabulary) :
      ∀ mark ∈ type.marks, Marked vocabulary mark :=
    fun mark member => (marked_of_mem_marks type member).mono within
  exact lexCompare_trans markCompare_swap (markCompare_trans apart) (marked firstOver)
    (marked secondOver) (marked thirdOver) lower upper

/-! Equality. Types are the same when they differ in the aliases only; the comparison
forgets the class names as well. -/

namespace CassType

mutual

def relabel (onScalar : ScalarType → ScalarType) (onClass : List UInt8 → List UInt8) :
    CassType → CassType
  | .scalar type => .scalar (onScalar type)
  | .custom className => .custom (onClass className)
  | .list valueType => .list (relabel onScalar onClass valueType)
  | .map keyType valueType =>
      .map (relabel onScalar onClass keyType) (relabel onScalar onClass valueType)
  | .set valueType => .set (relabel onScalar onClass valueType)
  | .tuple types => .tuple (relabelElements onScalar onClass types)
  | .userType types => .userType (relabelFields onScalar onClass types)

def relabelElements (onScalar : ScalarType → ScalarType) (onClass : List UInt8 → List UInt8) :
    List CassType → List CassType
  | [] => []
  | type :: types => relabel onScalar onClass type :: relabelElements onScalar onClass types

def relabelFields (onScalar : ScalarType → ScalarType) (onClass : List UInt8 → List UInt8) :
    List (List UInt8 × CassType) → List (List UInt8 × CassType)
  | [] => []
  | (name, type) :: types =>
      (name, relabel onScalar onClass type) :: relabelFields onScalar onClass types

end

def identified : CassType → CassType :=
  relabel ScalarType.canonical id

mutual

theorem relabel_identified_forget : ∀ type : CassType,
    relabel id (fun _ => []) type.identified = type.canonical
  | .scalar _ | .custom _ => rfl
  | .list valueType => congrArg CassType.list (relabel_identified_forget valueType)
  | .map keyType valueType => by
      have key := relabel_identified_forget keyType
      have value := relabel_identified_forget valueType
      rw [identified] at key value ⊢
      rw [relabel, relabel, key, value, canonical]
  | .set valueType => congrArg CassType.set (relabel_identified_forget valueType)
  | .tuple types => congrArg CassType.tuple (relabelElements_forget types)
  | .userType types => congrArg CassType.userType (relabelFields_forget types)

theorem relabelElements_forget : ∀ types : List CassType,
    relabelElements id (fun _ => []) (relabelElements ScalarType.canonical id types) =
      canonicals types
  | [] => rfl
  | type :: types => by
      have head := relabel_identified_forget type
      rw [identified] at head
      rw [relabelElements, relabelElements, head, relabelElements_forget types, canonicals]

theorem relabelFields_forget : ∀ types : List (List UInt8 × CassType),
    relabelFields id (fun _ => []) (relabelFields ScalarType.canonical id types) =
      canonicalFields types
  | [] => rfl
  | (name, type) :: types => by
      have head := relabel_identified_forget type
      rw [identified] at head
      rw [relabelFields, relabelFields, head, relabelFields_forget types, canonicalFields]

end

mutual

theorem relabel_canonical_restore {className : List UInt8} : ∀ type : CassType,
    (∀ other, .custom other ∈ type.leaves → other = className) →
      relabel id (fun _ => className) type.canonical = type.identified
  | .scalar _, _ => rfl
  | .custom other, single => by
      rw [single other (List.mem_singleton_self _)]
      rfl
  | .list valueType, single =>
      congrArg CassType.list (relabel_canonical_restore valueType single)
  | .map keyType valueType, single => by
      have key := relabel_canonical_restore keyType fun other leaf =>
        single other (List.mem_append_left _ leaf)
      have value := relabel_canonical_restore valueType fun other leaf =>
        single other (List.mem_append_right _ leaf)
      rw [canonical, relabel, key, value]
      rfl
  | .set valueType, single =>
      congrArg CassType.set (relabel_canonical_restore valueType single)
  | .tuple types, single => congrArg CassType.tuple (relabelElements_restore types single)
  | .userType types, single => congrArg CassType.userType (relabelFields_restore types single)

theorem relabelElements_restore {className : List UInt8} : ∀ types : List CassType,
    (∀ other, .custom other ∈ elementLeaves types → other = className) →
      relabelElements id (fun _ => className) (canonicals types) =
        relabelElements ScalarType.canonical id types
  | [], _ => rfl
  | type :: types, single => by
      have head := relabel_canonical_restore type fun other leaf =>
        single other (List.mem_append_left _ leaf)
      have tail := relabelElements_restore types fun other leaf =>
        single other (List.mem_append_right _ leaf)
      rw [canonicals, relabelElements, head, tail]
      rfl

theorem relabelFields_restore {className : List UInt8} :
    ∀ types : List (List UInt8 × CassType),
      (∀ other, .custom other ∈ fieldLeaves types → other = className) →
        relabelFields id (fun _ => className) (canonicalFields types) =
          relabelFields ScalarType.canonical id types
  | [], _ => rfl
  | (name, type) :: types, single => by
      have head := relabel_canonical_restore type fun other leaf =>
        single other (List.mem_append_left _ leaf)
      have tail := relabelFields_restore types fun other leaf =>
        single other (List.mem_append_right _ leaf)
      rw [canonicalFields, relabelFields, head, tail]
      rfl

end

end CassType

theorem typeCompare_of_identified {first second : CassType}
    (same : first.identified = second.identified) : typeCompare first second = 0 := by
  rw [typeCompare_eq_zero_iff, ← CassType.relabel_identified_forget, same,
    CassType.relabel_identified_forget]

def OneClass (vocabulary : CassType → Prop) : Prop :=
  ∀ className other, vocabulary (.custom className) → vocabulary (.custom other) →
    className = other

theorem identified_of_typeCompare {vocabulary : CassType → Prop} (oneClass : OneClass vocabulary)
    {first second : CassType} (firstOver : first.Over vocabulary)
    (secondOver : second.Over vocabulary) (same : typeCompare first second = 0) :
    first.identified = second.identified := by
  rw [typeCompare_eq_zero_iff] at same
  by_cases classes : ∃ className, vocabulary (.custom className)
  · obtain ⟨className, known⟩ := classes
    have restore {type : CassType} (within : type.Over vocabulary) :
        CassType.relabel id (fun _ => className) type.canonical = type.identified :=
      CassType.relabel_canonical_restore type fun other leaf =>
        oneClass other className (within _ leaf) known
    rw [← restore firstOver, ← restore secondOver, same]
  · have restore {type : CassType} (within : type.Over vocabulary) :
        CassType.relabel id (fun _ => []) type.canonical = type.identified :=
      CassType.relabel_canonical_restore type fun other leaf =>
        absurd ⟨other, within _ leaf⟩ classes
    rw [← restore firstOver, ← restore secondOver, same]

/-- The comparison is an order on the types over a vocabulary, whose equality is that of
the types. -/
structure LawfulOver (vocabulary : CassType → Prop) : Prop where
  refl : ∀ type : CassType, type.Over vocabulary → typeCompare type type = 0
  antisymm : ∀ first second : CassType, first.Over vocabulary → second.Over vocabulary →
    (typeCompare second first).sign = -(typeCompare first second).sign
  trans : ∀ first second third : CassType, first.Over vocabulary → second.Over vocabulary →
    third.Over vocabulary → typeCompare first second ≤ 0 → typeCompare second third ≤ 0 →
    typeCompare first third ≤ 0
  eq_zero_iff : ∀ first second : CassType, first.Over vocabulary → second.Over vocabulary →
    (typeCompare first second = 0 ↔ first.identified = second.identified)

theorem lawfulOver_iff (vocabulary : CassType → Prop) :
    LawfulOver vocabulary ↔ ¬ Interleaved vocabulary ∧ OneClass vocabulary := by
  have leaf {type : CassType} (known : vocabulary type) (single : type.leaves = [type]) :
      type.Over vocabulary := by
    intro other member
    rw [single, List.mem_singleton] at member
    rwa [member]
  constructor
  · intro lawful
    refine ⟨?_, ?_⟩
    · rintro ⟨text, varchar, timestamp | uuid⟩
      · have above := lawful.trans _ _ _ (leaf varchar rfl) (leaf text rfl) (leaf timestamp rfl)
        exact absurd (above (by decide) (by decide)) (by decide)
      · have above := lawful.trans _ _ _ (leaf varchar rfl) (leaf text rfl) (leaf uuid rfl)
        exact absurd (above (by decide) (by decide)) (by decide)
    · intro className other known otherKnown
      have same := (lawful.eq_zero_iff _ _ (leaf known rfl) (leaf otherKnown rfl)).mp
        (valueTypeCompare_self _)
      exact CassType.custom.inj same
  · rintro ⟨apart, oneClass⟩
    exact {
      refl := fun type _ => typeCompare_self type
      antisymm := fun first second _ _ => by rw [typeCompare_swap, Int.sign_neg]
      trans := fun _ _ _ firstOver secondOver thirdOver =>
        typeCompare_trans apart firstOver secondOver thirdOver
      eq_zero_iff := fun _ _ firstOver secondOver =>
        ⟨identified_of_typeCompare oneClass firstOver secondOver, typeCompare_of_identified⟩ }

/-- Varchar is text, which comes before uuid, which comes before varchar. Any two custom
types are equal. -/
theorem typeCompare_unlawful :
    (typeCompare (.scalar .varchar) (.scalar .text) ≤ 0 ∧
      typeCompare (.scalar .text) (.scalar .uuid) ≤ 0 ∧
      ¬ typeCompare (.scalar .varchar) (.scalar .uuid) ≤ 0) ∧
    typeCompare (.custom [0x41]) (.custom [0x42]) = 0 ∧
      (CassType.custom [0x41]).identified ≠ (CassType.custom [0x42]).identified := by
  refine ⟨by decide, rfl, ?_⟩
  intro same
  exact absurd (CassType.custom.inj same) (by decide)

end PhpDriver
