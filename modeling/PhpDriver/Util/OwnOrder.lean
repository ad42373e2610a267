import PhpDriver.Util.OwnContainers

namespace PhpDriver

open Data

/-! Which types have values that `php_driver_value_compare` orders. -/

namespace PhpValue

/-! Values of different PHP types are ordered by these. -/

theorem ownCompare_eq_thenCompare (first second : PhpValue) :
    ownCompare first second =
      thenCompare (compareNat first.zType second.zType) (ownCompare first second) := by
  by_cases same : first.zType = second.zType
  · rw [same, compareNat_self, thenCompare_zero_left]
  · rw [ownCompare_of_zType same, thenCompare_of_ne_zero]
    rwa [ne_eq, compareNat_eq_zero_iff]

theorem lawful_of_zType {holds : PhpValue → Prop}
    (within : ∀ item, holds item →
      LawfulOn (fun other => holds other ∧ other.zType = item.zType) ownCompare) :
    LawfulOn holds ownCompare := by
  have types : LawfulOn holds (fun first second : PhpValue => compareNat first.zType second.zType) :=
    (compareNat_lawful.comap zType).mono fun _ _ => trivial
  refine (types.thenCompare fun item known => (within item known).mono ?_).congr
    fun first second _ _ => ownCompare_eq_thenCompare first second
  rintro other ⟨otherKnown, same⟩
  exact ⟨otherKnown, (compareNat_eq_zero_iff.mp same).symm⟩

theorem lawful_of_nonnull {holds : PhpValue → Prop}
    (lawful : LawfulOn (fun value => holds value ∧ value ≠ .null) ownCompare) :
    LawfulOn holds ownCompare := by
  apply lawful_of_zType
  intro item known
  by_cases null : item = .null
  · -- nulls are equal
    have all_null (other : PhpValue) (same : holds other ∧ other.zType = item.zType) :
        other = .null := by
      rw [← zType_eq_one_iff, same.2, null]
      rfl
    apply LawfulOn.of_equal
    intro first second firstKnown secondKnown
    rw [all_null first firstKnown, all_null second secondKnown, ownCompare_null]
  · apply lawful.mono
    rintro other ⟨otherKnown, same⟩
    refine ⟨otherKnown, ?_⟩
    rw [ne_eq, ← zType_eq_one_iff, same, zType_eq_one_iff]
    exact null

theorem few_lawful {type : CassType} (few : type.isSeveral = false) :
    LawfulOn (OfType type) ownCompare :=
  lawful_of_nonnull (.of_equal fun _ _ firstKnown secondKnown =>
    ownCompare_of_few few firstKnown.1 firstKnown.2 secondKnown.1 secondKnown.2)

def AlikeScalar (value : Scalar) : PhpValue → Prop
  | .scalar other => value.Alike other
  | _ => False

theorem scalar_lawful (value : Scalar) : LawfulOn (AlikeScalar value) ownCompare := by
  apply LawfulOn.of_form PhpValue.scalar
  · intro item alike
    cases item with
    | scalar scalar => exact ⟨scalar, rfl⟩
    | _ => cases alike
  · apply (Scalar.compareAlike_lawful value).congr
    intro first second firstAlike secondAlike
    exact ownCompare_scalar (firstAlike.1.symm.trans secondAlike.1)

theorem scalarType_lawful (type : ScalarType) : LawfulOn (OfType (.scalar type)) ownCompare := by
  apply lawful_of_zType
  intro item typed
  cases item with
  | null =>
      apply LawfulOn.of_equal
      rintro first second ⟨_, firstType⟩ ⟨_, secondType⟩
      rw [zType_eq_one_iff.mp firstType, zType_eq_one_iff.mp secondType, ownCompare_null]
  | scalar value =>
      apply (scalar_lawful value).mono
      rintro other ⟨otherTyped, types⟩
      cases other with
      | null => exact absurd (zType_eq_one_iff.mp types.symm) (by simp)
      | scalar scalar =>
          obtain ⟨_, same, instance_⟩ := ofType_scalar_iff.mp typed
          obtain ⟨_, otherSame, otherInstance⟩ := ofType_scalar_iff.mp otherTyped
          obtain rfl := CassType.scalar.inj same
          obtain rfl := CassType.scalar.inj otherSame
          exact ⟨types.symm, by
            rw [isInstance_valueClass instance_, isInstance_valueClass otherInstance]⟩
      | _ => cases otherTyped.accepted
  | _ => cases typed.accepted

/-! Containers of one type are ordered by their sizes and their elements. -/

theorem elements_lawful {holds : PhpValue → Prop} (lawful : LawfulOn holds ownCompare) :
    LawfulOn (fun values => ∀ value ∈ values, holds value) fun first second : List PhpValue =>
      thenCompare (compareNat first.length second.length) (compareValues first second) := by
  have lengths : LawfulOn (fun values : List PhpValue => ∀ value ∈ values, holds value)
      (fun first second => compareNat first.length second.length) :=
    (compareNat_lawful.comap List.length).mono fun _ _ => trivial
  apply lengths.thenCompare
  intro item known
  have lex : LawfulOn
      (fun other : List PhpValue => (∀ value ∈ other, holds value) ∧
        compareNat item.length other.length = 0) (lexCompare ownCompare) :=
    lawful.lex.mono fun _ => And.left
  apply lex.congr
  intro first second firstKnown secondKnown
  apply compareValues_eq_lexCompare
  rw [← compareNat_eq_zero_iff.mp firstKnown.2, compareNat_eq_zero_iff.mp secondKnown.2]

theorem Positional.lawful_iff {type : CassType} {holds : PhpValue → Prop}
    (positional : Positional type holds) :
    LawfulOn (OfType type) ownCompare ↔ LawfulOn holds ownCompare := by
  constructor
  · intro lawful
    apply lawful.of_related fun element value =>
      IsContainer type value ∧ value.elements = [element]
    · intro element known
      obtain ⟨value, is, only⟩ := positional.single element known
      exact ⟨value, is.typed, is, only⟩
    · rintro first second image other ⟨imageIs, imageOnly⟩ ⟨otherIs, otherOnly⟩
      have content := positional.content image other imageIs otherIs
        (by rw [imageOnly, otherOnly]; rfl)
      rw [ownCompare_of_type imageIs otherIs, content, imageOnly, otherOnly]
      simp [compareValues, compareNat]
  · intro lawful
    have byElements : LawfulOn (fun value => OfType type value ∧ value ≠ .null)
        fun first second : PhpValue =>
          thenCompare (compareNat first.elements.length second.elements.length)
            (compareValues first.elements second.elements) :=
      ((elements_lawful lawful).comap PhpValue.elements).mono fun value known =>
        positional.elements value (known.1.isContainer positional.container known.2)
    apply lawful_of_nonnull
    apply byElements.congr
    rintro first second ⟨firstTyped, firstNonnull⟩ ⟨secondTyped, secondNonnull⟩
    have firstIs := firstTyped.isContainer positional.container firstNonnull
    have secondIs := secondTyped.isContainer positional.container secondNonnull
    rw [ownCompare_of_type firstIs secondIs]
    by_cases lengths : first.elements.length = second.elements.length
    · rw [positional.content first second firstIs secondIs lengths]
    · have differ : compareNat first.elements.length second.elements.length ≠ 0 := by
        rwa [ne_eq, compareNat_eq_zero_iff]
      rw [thenCompare_of_ne_zero differ, thenCompare_of_ne_zero differ]

/-- Neither of two sets of one element has the element of the other. -/
theorem set_not_lawful {valueType : CassType} (several : valueType.isSeveral) :
    ¬ LawfulOn (OfType (.set valueType)) ownCompare := by
  intro lawful
  have inhabited : valueType.isInhabited := by
    cases valueType with
    | custom _ => cases several
    | _ => rfl
  have one (element : PhpValue) (typed : OfType valueType element) (nonnull : element ≠ .null) :
      IsContainer (.set valueType) (.set valueType oneChain [element]) :=
    ⟨ofType_singleton rfl typed nonnull, rfl⟩
  have first := one _ (sample_typed valueType) (sample_ne_null inhabited)
  have second := one _ (other_typed several) (other_ne_null several)
  obtain ⟨differ, differs⟩ := samples_differ several
  have swap := lawful.swap _ _ first.typed second.typed
  rw [ownCompare_of_type first second, ownCompare_of_type second first, contentCompare,
    contentCompare, findValues_single_miss differ, findValues_single_miss differs] at swap
  simp [elements, compareNat] at swap

theorem set_lawful {valueType : CassType} (few : valueType.isSeveral = false) :
    LawfulOn (OfType (.set valueType)) ownCompare := by
  rw [(set_positional few).lawful_iff]
  exact .of_equal fun first second firstKnown secondKnown =>
    ownCompare_of_few few firstKnown.1 firstKnown.2 secondKnown.1 secondKnown.2

theorem map_not_lawful {keyType valueType : CassType} (several : keyType.isSeveral)
    (inhabited : valueType.isInhabited) :
    ¬ LawfulOn (OfType (.map keyType valueType)) ownCompare := by
  intro lawful
  have one (key : PhpValue) (typed : OfType keyType key) (nonnull : key ≠ .null) :
      IsContainer (.map keyType valueType)
        (.map keyType valueType oneChain [(key, sample valueType)]) :=
    ⟨ofType_entry typed nonnull (sample_typed valueType) (sample_ne_null inhabited), rfl⟩
  have first := one _ (sample_typed keyType) (sample_ne_null (isInhabited_of_isSeveral several))
  have second := one _ (other_typed several) (other_ne_null several)
  obtain ⟨differ, differs⟩ := samples_differ several
  have swap := lawful.swap _ _ first.typed second.typed
  rw [ownCompare_of_type first second, ownCompare_of_type second first, contentCompare,
    contentCompare, findEntries_single_miss differ, findEntries_single_miss differs] at swap
  simp [elements, compareNat] at swap

theorem map_lawful_iff {keyType valueType : CassType} (few : keyType.isSeveral = false)
    (inhabited : keyType.isInhabited) :
    LawfulOn (OfType (.map keyType valueType)) ownCompare ↔
      LawfulOn (OfType valueType) ownCompare := by
  rw [(map_positional few inhabited).lawful_iff]
  exact ⟨lawful_of_nonnull, fun lawful => lawful.mono fun _ => And.left⟩

end PhpValue

structure Carriable (types : List CassType) (own : CassType) : Prop where
  container : (PhpValue.sample own).ownType = some own
  canonical : ∃ type ∈ types, own.canonical = type.canonical

/-- Values of the types can be compared with each other: those that are objects are of one
class, and the types that containers can carry are ordered. -/
structure Comparable (types : List CassType) : Prop where
  oneClass : ∀ first ∈ types, ∀ second ∈ types, ∀ own other, first.objectClass = some own →
    second.objectClass = some other → own = other
  ordered : LawfulOn (Carriable types) typeCompare

namespace PhpValue

theorem ownCompare_samples {first second : CassType}
    (firstContainer : (sample first).ownType = some first)
    (secondContainer : (sample second).ownType = some second)
    (sameClass : first.objectClass = second.objectClass) :
    ownCompare (sample first) (sample second) = typeCompare first second := by
  have empty {type : CassType} : (sample type).elements = [] := by cases type <;> rfl
  rw [ownCompare_containers firstContainer secondContainer
    (valueType_of_valueClass firstContainer secondContainer sameClass), empty, empty,
    contentCompare_of_empty empty]
  simp [compareNat]

theorem comparable_of_lawful {types : List CassType}
    (lawful : LawfulOn (AnyOf types) ownCompare) : Comparable types := by
  have oneClass : ∀ first ∈ types, ∀ second ∈ types, ∀ own other,
      first.objectClass = some own → second.objectClass = some other → own = other := by
    intro first firstMember second secondMember own other firstClass secondClass
    by_contra apart
    have swap := lawful.swap _ _ ⟨first, firstMember, sample_typed first⟩
      ⟨second, secondMember, sample_typed second⟩
    rw [ownCompare_of_valueClass firstClass secondClass apart,
      ownCompare_of_valueClass secondClass firstClass (Ne.symm apart)] at swap
    exact absurd swap (by decide)
  refine ⟨oneClass, ?_⟩
  have carried (own : CassType) (known : Carriable types own) : AnyOf types (sample own) := by
    obtain ⟨type, member, same⟩ := known.canonical
    exact ⟨type, member, (OfType.congr same).mp (sample_typed own)⟩
  -- the class of the type whose place a carried type takes
  have classed (own : CassType) (known : Carriable types own) :
      ∃ type ∈ types, ∃ class_, type.objectClass = some class_ ∧ own.objectClass = some class_ := by
    obtain ⟨type, member, same⟩ := known.canonical
    have typed := (OfType.congr same).mp (sample_typed own)
    have isContainer : (sample own).ownType.isSome := by rw [known.container]; rfl
    obtain ⟨class_, own_class⟩ :=
      Option.isSome_iff_exists.mp (isSome_valueClass_of_container isContainer)
    refine ⟨type, member, class_, ?_, own_class⟩
    rw [← typed.valueClass_eq, own_class]
    intro null
    rw [null] at isContainer
    cases isContainer
  apply ((lawful.comap sample).mono carried).congr
  intro first second firstKnown secondKnown
  obtain ⟨firstType, firstMember, own, firstClass, ownClass⟩ := classed first firstKnown
  obtain ⟨secondType, secondMember, other, secondClass, otherClass⟩ := classed second secondKnown
  rw [ownCompare_samples firstKnown.container secondKnown.container]
  rw [ownClass, otherClass,
    oneClass firstType firstMember secondType secondMember own other firstClass secondClass]

theorem valueClass_of_zType {types : List CassType} (comparable : Comparable types)
    {first second : PhpValue} (firstKnown : AnyOf types first) (secondKnown : AnyOf types second)
    (same : first.zType = second.zType) : first.zval.valueClass = second.zval.valueClass := by
  by_cases object : first.zType = 8
  · have otherObject : second.zType = 8 := same.symm.trans object
    obtain ⟨own, firstClass⟩ := Option.isSome_iff_exists.mp ((zType_eq_eight_iff first).mp object)
    obtain ⟨other, secondClass⟩ :=
      Option.isSome_iff_exists.mp ((zType_eq_eight_iff second).mp otherObject)
    obtain ⟨type, member, typed⟩ := firstKnown
    obtain ⟨otherType, otherMember, otherTyped⟩ := secondKnown
    rw [firstClass, secondClass, comparable.oneClass type member otherType otherMember own other]
    · rw [← typed.valueClass_eq (ne_null_of_object object), firstClass]
    · rw [← otherTyped.valueClass_eq (ne_null_of_object otherObject), secondClass]
  · have plain : first.zval.valueClass = none := by
      rwa [zType_eq_eight_iff, Bool.not_eq_true, Option.isSome_eq_false_iff,
        Option.isNone_iff_eq_none] at object
    rw [same] at object
    rwa [zType_eq_eight_iff, Bool.not_eq_true, Option.isSome_eq_false_iff,
      Option.isNone_iff_eq_none, eq_comm, ← plain] at object

def declared (value : PhpValue) : CassType :=
  value.ownType.getD (.custom [])

theorem containers_lawful {types : List CassType} (comparable : Comparable types)
    (each : ∀ type ∈ types, LawfulOn (OfType type) ownCompare) (item : PhpValue)
    (container : item.ownType.isSome) :
    LawfulOn (fun other => AnyOf types other ∧ other.zval.valueClass = item.zval.valueClass)
      ownCompare := by
  have carried (other : PhpValue)
      (known : AnyOf types other ∧ other.zval.valueClass = item.zval.valueClass) :
      other.ownType = some other.declared ∧ Carriable types other.declared := by
    obtain ⟨⟨type, member, typed⟩, sameClass⟩ := known
    obtain ⟨own, owned⟩ :=
      Option.isSome_iff_exists.mp (ownType_of_valueClass container sameClass.symm)
    have declares : other.declared = own := by rw [declared, owned]; rfl
    rw [declares]
    refine ⟨owned, ?_, type, member, (accepts_iff_of_ownType owned type).mp typed.accepted⟩
    cases other with
    | null | scalar _ => cases owned
    | _ => obtain rfl := Option.some.inj owned; rfl
  have ordered := (comparable.ordered.comap declared).mono fun other known =>
    (carried other known).2
  -- containers of one type are ordered as the values of a field they can all be in
  have within (member : PhpValue)
      (known : AnyOf types member ∧ member.zval.valueClass = item.zval.valueClass) :
      LawfulOn (fun other =>
        (AnyOf types other ∧ other.zval.valueClass = item.zval.valueClass) ∧
          typeCompare member.declared other.declared = 0) ownCompare := by
    obtain ⟨type, inTypes, typed⟩ := known.1
    apply (each type inTypes).mono
    rintro other ⟨otherKnown, same⟩
    obtain ⟨_, _, otherTyped⟩ := otherKnown.1
    refine ⟨otherTyped.sound, (accepts_iff_of_ownType (carried other otherKnown).1 type).mpr ?_⟩
    rw [← (typeCompare_eq_zero_iff _ _).mp same]
    exact (accepts_iff_of_ownType (carried member known).1 type).mp typed.accepted
  apply (ordered.thenCompare within).congr
  intro first second firstKnown secondKnown
  rw [ownCompare_containers (carried first firstKnown).1 (carried second secondKnown).1
    (valueType_of_valueClass (carried first firstKnown).1 (carried second secondKnown).1
      (firstKnown.2.trans secondKnown.2.symm)), thenCompare_self_left]

theorem lawful_of_comparable {types : List CassType} (comparable : Comparable types)
    (each : ∀ type ∈ types, LawfulOn (OfType type) ownCompare) :
    LawfulOn (AnyOf types) ownCompare := by
  apply lawful_of_zType
  intro item known
  have sameClass (other : PhpValue) (otherKnown : AnyOf types other ∧ other.zType = item.zType) :
      other.zval.valueClass = item.zval.valueClass :=
    valueClass_of_zType comparable otherKnown.1 known otherKnown.2
  have containers (container : item.ownType.isSome) :
      LawfulOn (fun other => AnyOf types other ∧ other.zType = item.zType) ownCompare :=
    (containers_lawful comparable each item container).mono fun other otherKnown =>
      ⟨otherKnown.1, sameClass other otherKnown⟩
  cases item with
  | null =>
      apply LawfulOn.of_equal
      rintro first second ⟨_, firstType⟩ ⟨_, secondType⟩
      rw [zType_eq_one_iff.mp firstType, zType_eq_one_iff.mp secondType, ownCompare_null]
  | scalar value =>
      apply (scalar_lawful value).mono
      intro other otherKnown
      have classes := sameClass other otherKnown
      cases other with
      | null => exact absurd (zType_eq_one_iff.mp otherKnown.2.symm) (by simp)
      | scalar scalar => exact ⟨otherKnown.2.symm, classes.symm⟩
      | _ => cases value <;> cases classes
  | _ => exact containers rfl

theorem anyOf_lawful_iff (types : List CassType) :
    LawfulOn (AnyOf types) ownCompare ↔
      (∀ type ∈ types, LawfulOn (OfType type) ownCompare) ∧ Comparable types := by
  constructor
  · intro lawful
    exact ⟨fun type member => lawful.mono fun value typed => ⟨type, member, typed⟩,
      comparable_of_lawful lawful⟩
  · rintro ⟨each, comparable⟩
    exact lawful_of_comparable comparable each

theorem lawful_follows :
    Follows (fun type => LawfulOn (OfType type) ownCompare) Comparable where
  scalar := scalarType_lawful
  few := fun _ => few_lawful
  list := fun valueType => (list_positional valueType).lawful_iff
  set := fun _ => set_not_lawful
  setOfFew := fun _ => set_lawful
  map := fun _ _ => map_not_lawful
  mapOfFew := fun _ _ => map_lawful_iff
  tuple := fun types => (tuple_positional types).lawful_iff.trans (anyOf_lawful_iff types)
  userType := fun types =>
    (userType_positional types).lawful_iff.trans (anyOf_lawful_iff (types.map Prod.snd))

def setOfOne (number : BitVec 64) : PhpValue :=
  .set (.scalar .int) oneChain [.scalar (.long number)]

/-- Two sets of one number are greater than each other. -/
theorem sets_not_ordered :
    OfType (.set (.scalar .int)) (setOfOne 1) ∧ OfType (.set (.scalar .int)) (setOfOne 2) ∧
      ownCompare (setOfOne 1) (setOfOne 2) = 1 ∧ ownCompare (setOfOne 2) (setOfOne 1) = 1 ∧
      ¬ ∀ type, LawfulOn (OfType type) ownCompare := by
  have number (value : BitVec 64) : OfType (.scalar .int) (.scalar (.long value)) :=
    ofType_scalar_iff.mpr ⟨.int, rfl, rfl⟩
  have is (value : BitVec 64) : IsContainer (.set (.scalar .int)) (setOfOne value) :=
    ⟨ofType_singleton rfl (number value) (by simp), rfl⟩
  have numbers (value other : BitVec 64) :
      ownCompare (.scalar (.long value)) (.scalar (.long other)) =
        compareInt value.toInt other.toInt := ownCompare_scalar rfl
  have apart {value other : BitVec 64} (differ : compareInt other.toInt value.toInt ≠ 0) :
      ownCompare (setOfOne value) (setOfOne other) = 1 := by
    rw [← numbers] at differ
    rw [ownCompare_of_type (is value) (is other), setOfOne, setOfOne, contentCompare,
      findValues_single_miss differ]
    rfl
  have forward : ownCompare (setOfOne 1) (setOfOne 2) = 1 := apart (by decide)
  have backward : ownCompare (setOfOne 2) (setOfOne 1) = 1 := apart (by decide)
  refine ⟨(is 1).typed, (is 2).typed, forward, backward, ?_⟩
  intro lawful
  have swap := (lawful _).swap _ _ (is 1).typed (is 2).typed
  rw [forward, backward] at swap
  exact absurd swap (by decide)

/-- The values of a type are ordered when no set and no map in it can have several
different keys, and the values that one tuple or user type value can hold, whatever their
places, can be compared with each other. -/
theorem values_ordered_iff (type : CassType) :
    LawfulOn (OfType type) ownCompare ↔ type.FewKeys Comparable :=
  lawful_follows.iff_fewKeys type

end PhpValue

end PhpDriver
