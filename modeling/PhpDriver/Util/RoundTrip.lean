import PhpDriver.Util.ReturnedNames

namespace PhpDriver

open Data

variable (gmp : Gmp) {zendHash : List UInt8 → BitVec 32}

def encodeContainer : Zval → Option CassItem
  | .collection valueType values => collectionFromCollection gmp valueType values
  | .set valueType values => collectionFromSet gmp valueType values
  | .map keyType valueType entries => collectionFromMap gmp keyType valueType entries
  | .tuple types values => tupleFromTuple gmp types values
  | .userTypeValue types values => userTypeFromUserTypeValue gmp types values
  | _ => none

variable {gmp}

/-! A value in any position comes back as it was exactly when it is carried. -/

theorem canonical_list_iff {own type : CassType} :
    (CassType.list own).canonical = type.canonical ↔
      ∃ expected, type = .list expected ∧ own.canonical = expected.canonical := by
  cases type <;> simp [CassType.canonical]

theorem canonical_set_iff {own type : CassType} :
    (CassType.set own).canonical = type.canonical ↔
      ∃ expected, type = .set expected ∧ own.canonical = expected.canonical := by
  cases type <;> simp [CassType.canonical]

theorem canonical_map_iff {ownKey ownValue type : CassType} :
    (CassType.map ownKey ownValue).canonical = type.canonical ↔
      ∃ keyType valueType, type = .map keyType valueType ∧
        ownKey.canonical = keyType.canonical ∧ ownValue.canonical = valueType.canonical := by
  cases type <;> simp [CassType.canonical, and_assoc]

theorem canonical_tuple_iff {own : List CassType} {type : CassType} :
    (CassType.tuple own).canonical = type.canonical ↔
      ∃ types, type = .tuple types ∧
        own.map CassType.canonical = types.map CassType.canonical := by
  cases type <;> simp [CassType.canonical, CassType.canonicals_eq_map]

theorem SameFields.of_canonical {own types : OrderedMap (List UInt8) CassType}
    (same : own.map (fun field => (field.1, field.2.canonical)) =
      types.map fun field => (field.1, field.2.canonical)) : SameFields own types where
  names := by
    have names := congrArg (List.map Prod.fst) same
    rw [List.map_map, List.map_map] at names
    exact names
  types := by
    intro name
    rw [← OrderedMap.get_map, ← OrderedMap.get_map, same]

theorem canonical_userType_iff {own : OrderedMap (List UInt8) CassType} {type : CassType} :
    (CassType.userType own).canonical = type.canonical ↔
      ∃ types, type = .userType types ∧
        own.map (fun field => (field.1, field.2.canonical)) =
          types.map fun field => (field.1, field.2.canonical) := by
  cases type <;> simp [CassType.canonical, CassType.canonicalFields_eq_map]

theorem null_returns_iff (position : Position) (type : CassType) :
    Returns gmp zendHash position type .null ↔ position ≠ .element := by
  constructor
  · rintro ⟨out, taken, meaning⟩ rfl
    obtain ⟨item, encoded, decoded⟩ := Option.bind_eq_some_iff.mp taken
    have null : out = .null := (Zval.isNull_iff out).mp ((Zval.meaning_eq_null_iff out).mp meaning)
    rw [encodeValue] at encoded
    unfold nullItem at encoded
    split at encoded
    · -- false comes back as false
      obtain rfl := Option.some.inj encoded
      obtain rfl := Option.some.inj decoded
      cases null
    all_goals simp_all
  · intro field
    exact returns_null field type

private theorem exists_eq_some_and_iff {found : Option CassType} {type : CassType}
    {holds : CassType → Prop} (same : found = some type) :
    (∃ other, found = some other ∧ holds other) ↔ holds type := by
  simp [same]

theorem WellFormed.returns_iff {value : Zval} (wellFormed : WellFormed zendHash value)
    (position : Position) {type : CassType} (accepted : validateObject value type = .accepted) :
    Returns gmp zendHash position type value ↔ value.Carried position := by
  induction wellFormed generalizing position type with
  | null => rw [null_returns_iff, Zval.Carried]
  | scalar value =>
      obtain ⟨scalarType, rfl, holds⟩ := (validateObject_scalar_iff value type).mp accepted
      rw [scalar_returns_iff position holds, Zval.Carried]
  | foreign => exact absurd accepted (validateObject_foreign type)
  | collection elementsAccepted _ ih =>
      obtain ⟨expected, rfl, same⟩ :=
        canonical_list_iff.mp ((validateObject_container_iff rfl type).mp accepted)
      rw [list_returns_iff position same, Zval.Carried, Zval.allCarried_iff]
      refine forall₂_congr fun value member => ih value member .element ?_
      exact (validateObject_congr same).mp (elementsAccepted value member)
  | set keys _ ih =>
      obtain ⟨expected, rfl, same⟩ :=
        canonical_set_iff.mp ((validateObject_container_iff rfl type).mp accepted)
      rw [set_returns_iff position same keys, Zval.Carried, Zval.allCarried_iff]
      refine forall₂_congr fun value member => ih value member .element ?_
      exact (validateObject_congr same).mp (keys.fits value member).accepted
  | map keys values _ _ keyIh valueIh =>
      obtain ⟨keyType, valueType, rfl, sameKey, sameValue⟩ :=
        canonical_map_iff.mp ((validateObject_container_iff rfl type).mp accepted)
      rw [map_returns_iff position sameKey sameValue keys values, Zval.Carried,
        Zval.entriesCarried_iff]
      refine forall₂_congr fun entry member => and_congr ?_ ?_
      · have fits := keys.fits entry.1 (List.mem_map_of_mem member)
        exact keyIh entry member .element ((validateObject_congr sameKey).mp fits.accepted)
      · exact valueIh entry member .element
          ((validateObject_congr sameValue).mp (values entry member).accepted)
  | tuple typed _ ih =>
      obtain ⟨types, rfl, same⟩ :=
        canonical_tuple_iff.mp ((validateObject_container_iff rfl type).mp accepted)
      rw [tuple_returns_iff position same typed, Zval.Carried, Zval.indexedCarried_iff,
        ← Prod.forall (p := fun field => field ∈ _ → ∃ type, types[field.1]? = some type ∧
          Returns gmp zendHash .tupleField type field.2)]
      refine forall₂_congr fun field member => ?_
      obtain ⟨ownType, ownAt, fieldAccepted⟩ := typed.typed field member
      have typeAt := congrArg (·[field.1]?) same
      simp only [List.getElem?_map, ownAt, Option.map_some, eq_comm (a := some _),
        Option.map_eq_some_iff] at typeAt
      obtain ⟨type, typeAt, canonical⟩ := typeAt
      rw [exists_eq_some_and_iff typeAt]
      exact ih field member .tupleField ((validateObject_congr canonical.symm).mp fieldAccepted)
  | userTypeValue names typed _ ih =>
      obtain ⟨types, rfl, same⟩ :=
        canonical_userType_iff.mp ((validateObject_container_iff rfl type).mp accepted)
      rw [userTypeValue_returns_iff position (.of_canonical same) names typed, Zval.Carried,
        Zval.namedCarried_iff, ← Prod.forall (p := fun field => field ∈ _ →
          ∃ type, OrderedMap.get types field.1 = some type ∧
            Returns gmp zendHash .userTypeField type field.2)]
      refine and_congr_right fun _ => forall₂_congr fun field member => ?_
      obtain ⟨ownType, ownEq, fieldAccepted⟩ := typed.typed field member
      obtain ⟨type, typeEq, canonical⟩ := (SameFields.of_canonical same).exists_type ownEq
      rw [exists_eq_some_and_iff typeEq]
      exact ih field member .userTypeField ((validateObject_congr canonical).mp fieldAccepted)

theorem encodeContainer_eq {value : Zval} (container : value.ownType.isSome) {type : CassType}
    (accepted : validateObject value type = .accepted) (position : Position) :
    encodeContainer gmp value = encodeValue gmp position type value := by
  cases value with
  | null | scalar _ | foreign => cases container
  | collection valueType values =>
      obtain ⟨_, rfl, _⟩ :=
        canonical_list_iff.mp ((validateObject_container_iff rfl type).mp accepted)
      rfl
  | set valueType values =>
      obtain ⟨_, rfl, _⟩ :=
        canonical_set_iff.mp ((validateObject_container_iff rfl type).mp accepted)
      rfl
  | map keyType valueType entries =>
      obtain ⟨_, _, rfl, _⟩ :=
        canonical_map_iff.mp ((validateObject_container_iff rfl type).mp accepted)
      rfl
  | tuple types values =>
      obtain ⟨_, rfl, _⟩ :=
        canonical_tuple_iff.mp ((validateObject_container_iff rfl type).mp accepted)
      rfl
  | userTypeValue types values =>
      obtain ⟨_, rfl, _⟩ :=
        canonical_userType_iff.mp ((validateObject_container_iff rfl type).mp accepted)
      rfl

/-- A container that was built, encoded and decoded under a type that accepts it is the
same Cassandra value as before exactly when all that is in it is carried over. -/
theorem container_round_trips_iff (gmp : Gmp) {zendHash : List UInt8 → BitVec 32}
    {value : Zval} (built : Built zendHash value) (container : value.ownType.isSome)
    {type : CassType} (accepted : validateObject value type = .accepted) :
    (∃ out, (encodeContainer gmp value).bind (decodeValue gmp zendHash type) = some out ∧
        out.meaning = value.meaning) ↔ value.Carried .element := by
  rw [encodeContainer_eq container accepted .element]
  exact built.wellFormed.returns_iff .element accepted

private def pairType : CassType :=
  .tuple [.scalar .varint, .list (.scalar .text)]

private def pair : Zval :=
  .tuple [.scalar .varint, .list (.scalar .text)]
    [(0, .scalar (.varint (-129))), (1, .collection (.scalar .varchar) [.scalar (.string [0])])]

private theorem pair_built : Built zendInlineHash pair := by
  have list : Built zendInlineHash
      (.collection (.scalar .varchar) [.scalar (.string [0])]) :=
    @Built.collection _ (.scalar .varchar) [.scalar (.string [0])] _ []
      (by simp [Built.scalar]) rfl (by simp)
  exact @Built.tuple _ [.scalar .varint, .list (.scalar .text)]
    [⟨0, .scalar (.varint (-129))⟩,
      ⟨1, .collection (.scalar .varchar) [.scalar (.string [0])]⟩]
    (by simp [Built.scalar, list])

theorem pair_round_trips :
    ∃ out, (encodeContainer Gmp.reference pair).bind
        (decodeValue Gmp.reference zendInlineHash pairType) = some out ∧
      out.meaning = pair.meaning := by
  refine (container_round_trips_iff Gmp.reference pair_built rfl (by decide)).mpr ?_
  have apart : ¬ ScanMistakes (-129) := fun mistakes => by
    have multiple := mistakes.dvd
    omega
  simp [pair, Zval.Carried, Zval.IndexedCarried, Zval.AllCarried, Scalar.Carried, apart]

/-- The integer 4294967297 of a list comes back as 1, and a user type value with a field is
not encoded at all. -/
theorem some_containers_change :
    (∃ value type out, value = .collection (.scalar .int) [.scalar (.long 4294967297)] ∧
      Built zendInlineHash value ∧ validateObject value type = .accepted ∧
      (encodeContainer Gmp.reference value).bind
        (decodeValue Gmp.reference zendInlineHash type) = some out ∧
      out = .collection (.scalar .int) [.scalar (.long 1)] ∧ out.meaning ≠ value.meaning) ∧
    ∃ value type,
      value = .userTypeValue [([110], .scalar .text)] [([110], .scalar (.string [97]))] ∧
      Built zendInlineHash value ∧ validateObject value type = .accepted ∧
      encodeContainer Gmp.reference value = none := by
  refine ⟨⟨_, .list (.scalar .int), _, rfl, ?_, by decide, by rfl, rfl, ?_⟩,
    ⟨_, .userType [([110], .scalar .text)], rfl, ?_, by decide, by rfl⟩⟩
  · exact @Built.collection _ (.scalar .int) [.scalar (.long 4294967297)] _ []
      (by simp [Built.scalar]) rfl (by simp)
  · simp [Zval.meaning, Zval.meanings, Scalar.normal]
  · exact @Built.userTypeValue _ [([110], .scalar .text)]
      [⟨[110], .scalar (.string [97])⟩] (by decide) (by simp [Built.scalar])

end PhpDriver
