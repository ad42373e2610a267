import Mathlib.Data.List.Find
import PhpDriver.Util.ValidatorNodes

namespace PhpDriver

open Data

/-! Which names `php_driver_parse_column_type` takes for the classes of Cassandra. -/

def wrapperNames : List String :=
  ["FrozenType", "ReversedType", "CompositeType"]

def comparedNames : List String :=
  wrapperNames ++ columnClasses.map Prod.fst

def namedClass (name : List UInt8) : ColumnClass :=
  ((columnClasses.find? fun entry => marshal entry.1 == name).map Prod.snd).getD .custom

/-- A node of this name is taken for a class exactly when this is the name of the class. -/
structure MatchedInFull (name : List UInt8) : Prop where
  frozen : isFrozen name ↔ name = marshal "FrozenType"
  reversed : isReversed name ↔ name = marshal "ReversedType"
  composite : isComposite name ↔ name = marshal "CompositeType"
  kind : lookupType name = namedClass name
  others : (∀ className ∈ comparedNames, name ≠ marshal className) →
    ∀ children siblings, createType (.node name children) siblings =
      some (.custom (nodeDumpTo (.node name children :: siblings)))

theorem startsWith_iff {full name : List UInt8} :
    startsWith full name = true ↔ name <+: full := by
  rw [startsWith, beq_iff_eq, List.prefix_iff_eq_take]
  exact eq_comm

theorem marshal_prefix_iff {className other : String} :
    marshal className <+: marshal other ↔ ascii className <+: ascii other :=
  List.prefix_append_right_inj _

theorem comparedNames_apart : ∀ className ∈ comparedNames, ∀ other ∈ comparedNames,
    ascii className <+: ascii other → className = other := by
  decide +kernel

theorem columnClasses_not_custom : ∀ entry ∈ columnClasses, entry.2 ≠ .custom := by
  decide

theorem mem_comparedNames {entry : String × ColumnClass} (member : entry ∈ columnClasses) :
    entry.1 ∈ comparedNames :=
  List.mem_append_right _ (List.mem_map_of_mem member)

/-- What begins a name and is not the whole of it is nobody's name. -/
theorem namedClass_of_begins {name : List UInt8} {className : String}
    (member : className ∈ comparedNames) (begins : name <+: marshal className)
    (differs : name ≠ marshal className) : namedClass name = .custom := by
  unfold namedClass
  have none : columnClasses.find? (fun entry => marshal entry.1 == name) = none := by
    rw [List.find?_eq_none]
    intro entry isEntry same
    rw [beq_iff_eq] at same
    rw [← same] at begins differs
    rw [comparedNames_apart _ (mem_comparedNames isEntry) _ member
      (marshal_prefix_iff.mp begins)] at differs
    exact differs rfl
  rw [none]
  rfl

theorem lookupType_of_begins {name : List UInt8} {entry : String × ColumnClass}
    (member : entry ∈ columnClasses) (begins : name <+: marshal entry.1) :
    lookupType name ≠ .custom := by
  unfold lookupType
  cases found : columnClasses.find? fun entry => startsWith (marshal entry.1) name with
  | none =>
      have missed := List.find?_eq_none.mp found entry member
      exact absurd (startsWith_iff.mpr begins) missed
  | some first => exact columnClasses_not_custom first (List.mem_of_find?_eq_some found)

def BeginsInFull (name : List UInt8) : Prop :=
  ∀ className ∈ comparedNames, name <+: marshal className → name = marshal className

namespace BeginsInFull

variable {name : List UInt8}

theorem startsWith_iff (full : BeginsInFull name) {className : String}
    (member : className ∈ comparedNames) :
    startsWith (marshal className) name = true ↔ name = marshal className := by
  rw [PhpDriver.startsWith_iff]
  constructor
  · exact full className member
  · intro same
    rw [same]

theorem lookupType_eq (full : BeginsInFull name) : lookupType name = namedClass name := by
  have found : columnClasses.find? (fun entry => startsWith (marshal entry.1) name) =
      columnClasses.find? (fun entry => marshal entry.1 == name) := by
    apply List.find?_congr
    intro entry member
    rw [Bool.eq_iff_iff, full.startsWith_iff (mem_comparedNames member), beq_iff_eq]
    exact eq_comm
  unfold lookupType namedClass
  rw [found]
  cases columnClasses.find? (fun entry => marshal entry.1 == name) <;> rfl

theorem isWrapper_eq_false (full : BeginsInFull name)
    (other : ∀ className ∈ comparedNames, name ≠ marshal className) :
    isWrapper name = false := by
  have none (className : String) (member : className ∈ comparedNames) :
      startsWith (marshal className) name = false := by
    rw [Bool.eq_false_iff, ne_eq, full.startsWith_iff member]
    exact other className member
  rw [isWrapper, isFrozen, isReversed, isComposite, none "FrozenType" (by decide),
    none "ReversedType" (by decide), none "CompositeType" (by decide)]
  rfl

theorem namedClass_eq_custom
    (other : ∀ className ∈ comparedNames, name ≠ marshal className) :
    namedClass name = .custom := by
  have none : columnClasses.find? (fun entry => marshal entry.1 == name) = none := by
    rw [List.find?_eq_none]
    intro entry member same
    exact other entry.1 (mem_comparedNames member) (beq_iff_eq.mp same).symm
  rw [namedClass, none]
  rfl

end BeginsInFull

theorem matchedInFull_iff (name : List UInt8) : MatchedInFull name ↔ BeginsInFull name := by
  constructor
  · intro matched className member begins
    by_contra differs
    have starts : startsWith (marshal className) name = true := startsWith_iff.mpr begins
    cases List.mem_append.mp member with
    | inl wrapper =>
        simp only [wrapperNames, List.mem_cons, List.not_mem_nil, or_false] at wrapper
        cases wrapper with
        | inl frozen =>
            rw [frozen] at starts differs
            exact differs (matched.frozen.mp starts)
        | inr wrapper =>
            cases wrapper with
            | inl reversed =>
                rw [reversed] at starts differs
                exact differs (matched.reversed.mp starts)
            | inr composite =>
                rw [composite] at starts differs
                exact differs (matched.composite.mp starts)
    | inr column =>
        obtain ⟨entry, isEntry, rfl⟩ := List.mem_map.mp column
        apply lookupType_of_begins isEntry begins
        rw [matched.kind]
        exact namedClass_of_begins member begins differs
  · intro inFull
    exact
      { frozen := inFull.startsWith_iff (by decide)
        reversed := inFull.startsWith_iff (by decide)
        composite := inFull.startsWith_iff (by decide)
        kind := inFull.lookupType_eq
        others := by
          intro other children siblings
          have custom := BeginsInFull.namedClass_eq_custom other
          rw [← inFull.lookupType_eq] at custom
          unfold createType
          rw [inFull.isWrapper_eq_false other, if_neg Bool.false_ne_true, custom] }

theorem parseColumnType_derives {tree : ClassTree} {validator : List UInt8}
    (derives : Derives tree validator) :
    parseColumnType validator = columnType false false tree [] := by
  rw [parseColumnType, parseClassName_derives derives]
  simp only [nodesFrom_tree]

/-- A name that is cut short is read as the class it begins. -/
theorem shortened_name_matches :
    parseColumnType (marshal "UTF8") = .success false false (.scalar .varchar) ∧
      ¬ MatchedInFull (marshal "UTF8") := by
  constructor
  · have isName : IsName (marshal "UTF8") := isName_marshal (by decide +kernel)
    have plain : isReversed (marshal "UTF8") = false ∧ isFrozen (marshal "UTF8") = false ∧
        isComposite (marshal "UTF8") = false ∧ isWrapper (marshal "UTF8") = false ∧
        lookupType (marshal "UTF8") = .scalar .varchar := by
      decide +kernel
    rw [parseColumnType_derives (.bare isName)]
    unfold columnType createType
    simp only [plain, Bool.false_eq_true, if_false]
  · rw [matchedInFull_iff]
    intro full
    have whole := full "UTF8Type" (by decide) (marshal_prefix_iff.mpr (by decide +kernel))
    exact absurd whole (by decide +kernel)

end PhpDriver
