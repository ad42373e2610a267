import PhpDriver.Util.OwnContainers

namespace PhpDriver

open Data

/-! Which types have values whose hashes are equal when they compare as equal. -/

namespace PhpValue

def Coherent (holds : PhpValue → Prop) : Prop :=
  ∀ first second, holds first → holds second → ownCompare first second = 0 →
    first.ownHash = second.ownHash

theorem Coherent.mono {holds part : PhpValue → Prop} (coherent : Coherent holds)
    (within : ∀ value, part value → holds value) : Coherent part :=
  fun first second firstPart secondPart =>
    coherent first second (within first firstPart) (within second secondPart)

theorem valueClass_of_equal {first second : PhpValue} (equal : ownCompare first second = 0) :
    first.zType = second.zType ∧ first.zval.valueClass = second.zval.valueClass := by
  have types : first.zType = second.zType := by
    by_contra differ
    rw [ownCompare_of_zType differ, compareNat_eq_zero_iff] at equal
    exact differ equal
  refine ⟨types, ?_⟩
  cases firstClass : first.zval.valueClass with
  | none =>
      cases secondClass : second.zval.valueClass with
      | none => rfl
      | some other =>
          have object := (zType_eq_eight_iff second).mpr (by simp [secondClass])
          rw [← types, zType_eq_eight_iff, firstClass] at object
          cases object
  | some own =>
      cases secondClass : second.zval.valueClass with
      | none =>
          have object := (zType_eq_eight_iff first).mpr (by simp [firstClass])
          rw [types, zType_eq_eight_iff, secondClass] at object
          cases object
      | some other =>
          by_contra apart
          rw [ownCompare_of_valueClass firstClass secondClass fun same => apart (by rw [same])]
            at equal
          cases equal

theorem equal_cases {first second : PhpValue} (equal : ownCompare first second = 0) :
    (first = .null ∧ second = .null) ∨
    (∃ value other, first = .scalar value ∧ second = .scalar other ∧ value.Alike other ∧
      value.compareAlike other = 0) ∨
    ∃ own other, first.ownType = some own ∧ second.ownType = some other ∧
      own.canonical = other.canonical := by
  obtain ⟨types, classes⟩ := valueClass_of_equal equal
  cases first with
  | null => exact Or.inl ⟨rfl, zType_eq_one_iff.mp types.symm⟩
  | scalar value =>
      cases second with
      | null => exact absurd (zType_eq_one_iff.mp types) (by simp)
      | scalar other =>
          rw [ownCompare_scalar types] at equal
          exact Or.inr (Or.inl ⟨value, other, rfl, rfl, ⟨types, classes⟩, equal⟩)
      | _ => cases value <;> cases classes
  | _ =>
      have container := ownType_of_valueClass rfl classes
      obtain ⟨other, secondOwn⟩ := Option.isSome_iff_exists.mp container
      refine Or.inr (Or.inr ⟨_, other, rfl, secondOwn, ?_⟩)
      rw [ownCompare_containers rfl secondOwn (valueType_of_valueClass rfl secondOwn classes),
        thenCompare_eq_zero_iff, typeCompare_eq_zero_iff] at equal
      exact equal.1

theorem ownHash_of_few {type : CassType} (few : type.isSeveral = false) {value : PhpValue}
    (typed : OfType type value) : value.ownHash = 0 := by
  by_cases null : value = .null
  · rw [null]
    rfl
  · exact (few_empty few typed null).2.2

theorem few_coherent {type : CassType} (few : type.isSeveral = false) :
    Coherent (OfType type) := by
  intro first second firstTyped secondTyped _
  rw [ownHash_of_few few firstTyped, ownHash_of_few few secondTyped]

theorem scalar_coherent (type : ScalarType) : Coherent (OfType (.scalar type)) := by
  intro first second firstTyped secondTyped equal
  rcases equal_cases equal with ⟨rfl, rfl⟩ | ⟨value, other, rfl, rfl, alike, same⟩ | ⟨own, _, known, _⟩
  · rfl
  · exact Scalar.ownHash_of_compareAlike alike same
  · have accepted := (accepts_iff_of_ownType known _).mp firstTyped.accepted
    cases first with
    | null | scalar _ => cases known
    | _ => obtain rfl := Option.some.inj known; cases accepted

theorem map_ownHash_of_compareValues {holds : PhpValue → Prop} (coherent : Coherent holds)
    {first second : List PhpValue} (lengths : first.length = second.length)
    (firstHolds : ∀ value ∈ first, holds value) (secondHolds : ∀ value ∈ second, holds value)
    (equal : compareValues first second = 0) : first.map ownHash = second.map ownHash := by
  induction first generalizing second with
  | nil => cases second with
    | nil => rfl
    | cons other others => cases lengths
  | cons value values ih => cases second with
    | nil => cases lengths
    | cons other others =>
        rw [List.forall_mem_cons] at firstHolds secondHolds
        rw [compareValues, thenCompare_eq_zero_iff] at equal
        rw [List.map_cons, List.map_cons,
          coherent value other firstHolds.1 secondHolds.1 equal.1,
          ih (Nat.succ.inj lengths) firstHolds.2 secondHolds.2 equal.2]

structure Mixed (type : CassType) (mix : List (BitVec 32) → BitVec 32) : Prop where
  hashed : ∀ value, IsContainer type value → value.ownHash = mix (value.elements.map ownHash)
  single : ∀ hashv other, mix [hashv] = mix [other] → hashv = other

theorem Positional.coherent_iff {type : CassType} {holds : PhpValue → Prop}
    (positional : Positional type holds) {mix : List (BitVec 32) → BitVec 32}
    (mixed : Mixed type mix) : Coherent (OfType type) ↔ Coherent holds := by
  constructor
  · intro coherent first second firstHolds secondHolds equal
    obtain ⟨container, is, only⟩ := positional.single first firstHolds
    obtain ⟨other, otherIs, otherOnly⟩ := positional.single second secondHolds
    have content := positional.content container other is otherIs (by rw [only, otherOnly]; rfl)
    have same : ownCompare container other = 0 := by
      rw [ownCompare_of_type is otherIs, content, only, otherOnly]
      simp [compareValues, compareNat, equal]
    have hashes := coherent container other is.typed otherIs.typed same
    rw [mixed.hashed container is, mixed.hashed other otherIs, only, otherOnly] at hashes
    exact mixed.single _ _ hashes
  · intro coherent first second firstTyped secondTyped equal
    rcases equal_cases equal with ⟨rfl, rfl⟩ | ⟨value, other, rfl, _⟩ | ⟨own, other, known, otherKnown, _⟩
    · rfl
    · obtain ⟨scalarType, rfl, _⟩ := ofType_scalar_iff.mp firstTyped
      exact absurd rfl (positional.container scalarType)
    · have is : IsContainer type first := ⟨firstTyped, by rw [known]; rfl⟩
      have otherIs : IsContainer type second := ⟨secondTyped, by rw [otherKnown]; rfl⟩
      rw [ownCompare_of_type is otherIs, thenCompare_eq_zero_iff, compareNat_eq_zero_iff] at equal
      rw [positional.content first second is otherIs equal.1] at equal
      rw [mixed.hashed first is, mixed.hashed second otherIs,
        map_ownHash_of_compareValues coherent equal.1 (positional.elements first is)
          (positional.elements second otherIs) equal.2]

theorem combineHash_inj {seed hashv other : BitVec 32}
    (same : combineHash seed hashv = combineHash seed other) : hashv = other := by
  rwa [combineHash, combineHash, BitVec.xor_right_inj, BitVec.add_left_inj, BitVec.add_left_inj,
    BitVec.add_left_inj] at same

def foldHash (hashes : List (BitVec 32)) : BitVec 32 :=
  hashes.foldl combineHash 0

theorem list_mixed (valueType : CassType) : Mixed (.list valueType) foldHash where
  hashed := by
    intro value is
    obtain ⟨own, values, rfl, _⟩ := is.list
    exact hashValues_eq_foldl 0 values
  single := fun _ _ => combineHash_inj

theorem tuple_mixed (types : List CassType) : Mixed (.tuple types) foldHash where
  hashed := by
    intro value is
    obtain ⟨own, values, rfl, _⟩ := is.tuple
    rw [ownHash, hashIndexed_eq, hashValues_eq_foldl]
    rfl
  single := fun _ _ => combineHash_inj

theorem userType_mixed (types : List (List UInt8 × CassType)) :
    Mixed (.userType types) foldHash where
  hashed := by
    intro value is
    obtain ⟨own, values, rfl, _⟩ := is.userType
    rw [ownHash, hashNamed_eq, hashValues_eq_foldl]
    rfl
  single := fun _ _ => combineHash_inj

theorem set_mixed (valueType : CassType) : Mixed (.set valueType) foldHash where
  hashed := by
    intro value is
    obtain ⟨own, chains, values, rfl, _⟩ := is.set
    exact hashValues_eq_foldl 0 values
  single := fun _ _ => combineHash_inj

theorem hashEntries_of_few {keyType : CassType} (few : keyType.isSeveral = false)
    {entries : List (PhpValue × PhpValue)} (typed : ∀ entry ∈ entries, OfType keyType entry.1)
    (hashv : BitVec 32) :
    hashEntries hashv entries =
      ((entries.map Prod.snd).map ownHash).foldl
        (fun hashv value => combineHash (combineHash hashv 0) value) hashv := by
  induction entries generalizing hashv with
  | nil => rfl
  | cons entry entries ih =>
      rw [List.forall_mem_cons] at typed
      rw [hashEntries, ih typed.2, ownHash_of_few few typed.1]
      rfl

theorem map_mixed {keyType : CassType} (few : keyType.isSeveral = false) (valueType : CassType) :
    Mixed (.map keyType valueType) (fun hashes =>
      hashes.foldl (fun hashv value => combineHash (combineHash hashv 0) value) 0) where
  hashed := by
    intro value is
    obtain ⟨_, _, chains, entries, rfl, _, typed⟩ := is.map
    exact hashEntries_of_few few (fun entry member => (typed entry member).1.1) 0
  single := fun _ _ => combineHash_inj

/-- Values of several types that compare as equal are of one of the types. -/
theorem anyOf_coherent_iff (types : List CassType) :
    Coherent (AnyOf types) ↔ ∀ type ∈ types, Coherent (OfType type) := by
  constructor
  · intro coherent type member
    exact coherent.mono fun value typed => ⟨type, member, typed⟩
  · rintro each first second ⟨type, member, typed⟩ ⟨otherType, _, otherTyped⟩ equal
    rcases equal_cases equal with ⟨rfl, rfl⟩ | ⟨value, other, rfl, rfl, alike, same⟩ |
      ⟨own, other, known, otherKnown, same⟩
    · rfl
    · exact Scalar.ownHash_of_compareAlike alike same
    · apply each type member first second typed _ equal
      refine ⟨otherTyped.sound, (accepts_iff_of_ownType otherKnown type).mpr ?_⟩
      rw [← same]
      exact (accepts_iff_of_ownType known type).mp typed.accepted

/-! Hashes as numbers, on which the order of two keys shows. -/

def mixHash (seed hashv : Nat) : Nat :=
  seed ^^^ ((hashv + 0x9e3779b9 + seed <<< 6 + seed >>> 2) % 2 ^ 32)

theorem toNat_combineHash (seed hashv : BitVec 32) :
    (combineHash seed hashv).toNat = mixHash seed.toNat hashv.toNat := by
  rw [combineHash, mixHash, BitVec.toNat_xor, BitVec.toNat_add, BitVec.toNat_add, BitVec.toNat_add,
    BitVec.toNat_shiftLeft, BitVec.toNat_ushiftRight, Nat.mod_add_mod, Nat.add_assoc (_ % _),
    Nat.mod_add_mod, ← Nat.add_assoc, Nat.add_right_comm _ (_ % _), Nat.add_mod_mod,
    Nat.add_right_comm]
  rfl

def mixHashes (hashes : List Nat) : Nat :=
  hashes.foldl mixHash 0

theorem toNat_foldHash (hashes : List (BitVec 32)) :
    (foldHash hashes).toNat = mixHashes (hashes.map BitVec.toNat) := by
  have folded (seed : BitVec 32) : (hashes.foldl combineHash seed).toNat =
      (hashes.map BitVec.toNat).foldl mixHash seed.toNat := by
    induction hashes generalizing seed with
    | nil => rfl
    | cons hashv hashes ih => rw [List.foldl_cons, ih, toNat_combineHash]; rfl
  exact folded 0

def sampleHashes : List Nat :=
  [0, 527, 5381, 2654435769, 4216856302]

/-- The two keys of a set in the two orders, and those of a map from keys to one sample. -/
def mixesApart (first second : Nat) : Bool :=
  mixHashes [first, second] != mixHashes [second, first] &&
    sampleHashes.all fun value =>
      mixHashes [first, value, second, value] != mixHashes [second, value, first, value]

theorem mpzLimbs_zero : mpzLimbs 0 = [] := by
  simp [mpzLimbs]

theorem mpzLimbs_one : mpzLimbs 1 = [1] := by
  simp [mpzLimbs]

theorem scalar_hash_mem (type : ScalarType) : type.sample.ownHash.toNat ∈ sampleHashes := by
  cases type with
  | varint | decimal =>
      rw [ScalarType.sample, Scalar.ownHash, mpzHash, mpzLimbs_zero]
      decide
  | _ => decide +kernel

theorem sample_hash_mem (type : CassType) : (sample type).ownHash.toNat ∈ sampleHashes := by
  cases type with
  | scalar type => exact scalar_hash_mem type
  | _ => exact List.mem_cons_self

theorem scalar_mixesApart (type : ScalarType) :
    mixesApart type.sample.ownHash.toNat type.other.ownHash.toNat := by
  cases type with
  | varint =>
      rw [ScalarType.sample, ScalarType.other, Scalar.ownHash, Scalar.ownHash, mpzHash, mpzHash,
        mpzLimbs_zero, mpzLimbs_one]
      decide +kernel
  | decimal =>
      rw [ScalarType.sample, ScalarType.other, Scalar.ownHash, Scalar.ownHash, mpzHash, mpzHash,
        mpzLimbs_zero]
      decide +kernel
  | _ => decide +kernel

theorem samples_mixApart {type : CassType} (several : type.isSeveral) :
    mixesApart (sample type).ownHash.toNat (other type).ownHash.toNat := by
  -- the sample that is a container is empty, and the other one has one element
  have holding (hashes : List (BitVec 32))
      (apart : mixesApart 0 (mixHashes (hashes.map BitVec.toNat))) :
      mixesApart 0 (foldHash hashes).toNat := by
    rwa [toNat_foldHash]
  cases type with
  | scalar type => exact scalar_mixesApart type
  | custom _ => cases several
  | list valueType => exact holding [0] (by decide +kernel)
  | set valueType =>
      have apart : ∀ hashv ∈ sampleHashes, mixesApart 0 (mixHashes [hashv]) := by decide +kernel
      exact holding [(sample valueType).ownHash] (apart _ (sample_hash_mem valueType))
  | map keyType valueType =>
      have apart : ∀ key ∈ sampleHashes, ∀ value ∈ sampleHashes,
          mixesApart 0 (mixHashes [key, value]) := by decide +kernel
      exact holding [(sample keyType).ownHash, (sample valueType).ownHash]
        (apart _ (sample_hash_mem keyType) _ (sample_hash_mem valueType))
  | tuple types =>
      cases types with
      | nil => cases several
      | cons first rest => exact holding [0] (by decide +kernel)
  | userType types =>
      cases types with
      | nil => cases several
      | cons first rest => exact holding [0] (by decide +kernel)

theorem set_hashes_differ {type : CassType} (several : type.isSeveral) :
    foldHash [(sample type).ownHash, (other type).ownHash] ≠
      foldHash [(other type).ownHash, (sample type).ownHash] := by
  have apart := samples_mixApart several
  rw [mixesApart, Bool.and_eq_true, bne_iff_ne] at apart
  intro same
  apply apart.1
  have numbers := congrArg BitVec.toNat same
  rwa [toNat_foldHash, toNat_foldHash] at numbers

theorem map_hashes_differ {type : CassType} (several : type.isSeveral) (valueType : CassType) :
    foldHash [(sample type).ownHash, (sample valueType).ownHash, (other type).ownHash,
        (sample valueType).ownHash] ≠
      foldHash [(other type).ownHash, (sample valueType).ownHash, (sample type).ownHash,
        (sample valueType).ownHash] := by
  have apart := samples_mixApart several
  rw [mixesApart, Bool.and_eq_true, List.all_eq_true] at apart
  have differ := apart.2 _ (sample_hash_mem valueType)
  rw [bne_iff_ne] at differ
  intro same
  apply differ
  have numbers := congrArg BitVec.toNat same
  rwa [toNat_foldHash, toNat_foldHash] at numbers

/-! Two containers of the same keys in the two orders. -/

theorem ownCompare_sample (type : CassType) : ownCompare (sample type) (sample type) = 0 := by
  cases type with
  | scalar type =>
      rw [sample, ownCompare_scalar rfl]
      exact (Scalar.compareAlike_lawful _).refl _ (Scalar.Alike.refl _)
  | custom _ => exact ownCompare_null
  | _ =>
      rw [sample, ownCompare_containers rfl rfl rfl, typeCompare_self,
        contentCompare_of_empty rfl]
      rfl

/-- A table in which every key of another is found, for keys that are equal to themselves. -/
theorem findKey_of_self {chains : Chains} {keys : List PhpValue} (table : chains.Holds keys)
    {key : PhpValue} (member : key ∈ keys) (self : ownCompare key key = 0) :
    findKey chains.log2NumBuckets key keys chains.order ≠ none :=
  (findKey_ne_none_iff table key).mpr ⟨key, member, rfl, self⟩

theorem findValues_of_self {chains : Chains} {values others : List PhpValue}
    (table : chains.Holds others)
    (known : ∀ value ∈ values, value ∈ others ∧ ownCompare value value = 0) :
    findValues chains values others = 0 :=
  (findValues_eq_zero_iff chains values others).mpr fun value member =>
    findKey_of_self table (known value member).1 (known value member).2

theorem findEntries_of_self {chains : Chains} {entries others : List (PhpValue × PhpValue)}
    (table : chains.Holds (others.map Prod.fst)) {value : PhpValue}
    (equal : ownCompare value value = 0)
    (known : ∀ entry ∈ entries,
      entry.1 ∈ others.map Prod.fst ∧ ownCompare entry.1 entry.1 = 0 ∧ entry.2 = value)
    (otherKnown : ∀ entry ∈ others, entry.2 = value) :
    findEntries chains entries others = 0 := by
  induction entries with
  | nil => simp [findEntries]
  | cons entry entries ih =>
      obtain ⟨key, own⟩ := entry
      rw [List.forall_mem_cons] at known
      obtain ⟨⟨member, self, rfl⟩, rest⟩ := known
      obtain ⟨position, found⟩ := Option.ne_none_iff_exists'.mp (findKey_of_self table member self)
      obtain ⟨other, inside, _⟩ := matches_of_findKey found
      rw [List.getElem?_map, Option.map_eq_some_iff] at inside
      obtain ⟨⟨_, otherValue⟩, at_, rfl⟩ := inside
      have same : otherValue = own := otherKnown _ (List.mem_of_getElem? at_)
      rw [findEntries_cons found at_, same, equal, ih rest]
      rfl

theorem ownCompare_other {type : CassType} (several : type.isSeveral) :
    ownCompare (other type) (other type) = 0 := by
  cases type with
  | scalar type =>
      rw [other, ownCompare_scalar rfl]
      exact (Scalar.compareAlike_lawful _).refl _ (Scalar.Alike.refl _)
  | custom _ => cases several
  | list _ =>
      rw [other, ownCompare_containers rfl rfl rfl, typeCompare_self]
      simp [contentCompare, elements, compareValues, compareNat]
  | set valueType =>
      rw [other, ownCompare_containers rfl rfl rfl, typeCompare_self, contentCompare,
        findValues_of_self (oneChain_holds _) (by simp [ownCompare_sample])]
      simp [compareNat]
  | map keyType valueType =>
      rw [other, ownCompare_containers rfl rfl rfl, typeCompare_self, contentCompare,
        findEntries_of_self (oneChain_holds _) (ownCompare_sample valueType)
          (by simp [ownCompare_sample]) (by simp)]
      simp [compareNat]
  | tuple _ =>
      rw [other, ownCompare_containers rfl rfl rfl, typeCompare_self]
      simp [contentCompare, elements, compareValues, compareNat]
  | userType types =>
      cases types with
      | nil => cases several
      | cons first rest =>
          rw [other, ownCompare_containers rfl rfl rfl, typeCompare_self]
          simp [contentCompare, elements, compareValues, compareNat]

def twoChains : Chains :=
  { order := [0, 1] }

theorem twoChains_hold {first second : PhpValue} (differ : ownCompare first second ≠ 0) :
    twoChains.Holds [first, second] where
  order := List.Perm.refl _
  initial := Nat.le_refl _
  distinct := by
    rw [List.pairwise_pair]
    exact fun found => differ found.2

theorem set_not_coherent {valueType : CassType} (several : valueType.isSeveral) :
    ¬ Coherent (OfType (.set valueType)) := by
  intro coherent
  have sampleTyped := sample_typed valueType
  have sampleNonnull := sample_ne_null (isInhabited_of_isSeveral several)
  have otherTyped := other_typed several
  have otherNonnull := other_ne_null several
  have table := twoChains_hold (samples_differ several).1
  have otherTable := twoChains_hold (samples_differ several).2
  have typed : OfType (.set valueType)
      (.set valueType twoChains [sample valueType, other valueType]) :=
    ofType_set_iff.mpr ⟨rfl, table, by simp [sampleTyped, sampleNonnull, otherTyped, otherNonnull]⟩
  have turned : OfType (.set valueType)
      (.set valueType twoChains [other valueType, sample valueType]) :=
    ofType_set_iff.mpr
      ⟨rfl, otherTable, by simp [sampleTyped, sampleNonnull, otherTyped, otherNonnull]⟩
  have hashes := coherent _ _ typed turned (by
    rw [ownCompare_containers rfl rfl rfl, typeCompare_self, contentCompare,
      findValues_of_self otherTable (by simp [ownCompare_sample, ownCompare_other several])]
    simp [compareNat, elements])
  exact set_hashes_differ several hashes

/-- A map from the two keys to one value, in one order and in the other. -/
theorem map_not_coherent {keyType valueType : CassType} (several : keyType.isSeveral)
    (inhabited : valueType.isInhabited) : ¬ Coherent (OfType (.map keyType valueType)) := by
  intro coherent
  have sampleTyped := sample_typed keyType
  have sampleNonnull := sample_ne_null (isInhabited_of_isSeveral several)
  have otherTyped := other_typed several
  have otherNonnull := other_ne_null several
  have valueTyped := sample_typed valueType
  have valueNonnull := sample_ne_null inhabited
  have table := twoChains_hold (samples_differ several).1
  have otherTable := twoChains_hold (samples_differ several).2
  have typed : OfType (.map keyType valueType) (.map keyType valueType twoChains
      [(sample keyType, sample valueType), (other keyType, sample valueType)]) :=
    ofType_map_iff.mpr ⟨⟨rfl, rfl⟩, table, by
      simp [sampleTyped, sampleNonnull, otherTyped, otherNonnull, valueTyped, valueNonnull]⟩
  have turned : OfType (.map keyType valueType) (.map keyType valueType twoChains
      [(other keyType, sample valueType), (sample keyType, sample valueType)]) :=
    ofType_map_iff.mpr ⟨⟨rfl, rfl⟩, otherTable, by
      simp [sampleTyped, sampleNonnull, otherTyped, otherNonnull, valueTyped, valueNonnull]⟩
  have hashes := coherent _ _ typed turned (by
    rw [ownCompare_containers rfl rfl rfl, typeCompare_self, contentCompare,
      findEntries_of_self otherTable (ownCompare_sample valueType)
        (by simp [ownCompare_sample, ownCompare_other several]) (by simp)]
    simp [compareNat, elements])
  exact map_hashes_differ several valueType hashes

theorem coherent_of_nonnull {type : CassType}
    (coherent : Coherent fun value => OfType type value ∧ value ≠ .null) :
    Coherent (OfType type) := by
  intro first second firstTyped secondTyped equal
  have types := (valueClass_of_equal equal).1
  by_cases null : first = .null
  · rw [null] at types ⊢
    rw [zType_eq_one_iff.mp types.symm]
  · have otherNonnull : second ≠ .null := by
      intro other
      rw [other] at types
      exact null (zType_eq_one_iff.mp types)
    exact coherent first second ⟨firstTyped, null⟩ ⟨secondTyped, otherNonnull⟩ equal

theorem set_coherent {valueType : CassType} (few : valueType.isSeveral = false) :
    Coherent (OfType (.set valueType)) :=
  ((set_positional few).coherent_iff (set_mixed valueType)).mpr
    ((few_coherent few).mono fun _ => And.left)

theorem map_coherent_iff {keyType valueType : CassType} (few : keyType.isSeveral = false)
    (inhabited : keyType.isInhabited) :
    Coherent (OfType (.map keyType valueType)) ↔ Coherent (OfType valueType) := by
  rw [(map_positional few inhabited).coherent_iff (map_mixed few valueType)]
  exact ⟨coherent_of_nonnull, fun coherent => coherent.mono fun _ => And.left⟩

theorem coherent_follows :
    Follows (fun type => Coherent (OfType type)) (fun _ => True) where
  scalar := scalar_coherent
  few := fun _ => few_coherent
  list := fun valueType => (list_positional valueType).coherent_iff (list_mixed valueType)
  set := fun _ => set_not_coherent
  setOfFew := fun _ => set_coherent
  map := fun _ _ => map_not_coherent
  mapOfFew := fun _ _ => map_coherent_iff
  tuple := fun types => by
    rw [(tuple_positional types).coherent_iff (tuple_mixed types), anyOf_coherent_iff, and_true]
  userType := fun types => by
    rw [(userType_positional types).coherent_iff (userType_mixed types), anyOf_coherent_iff,
      and_true]

def setOfTwo (first second : BitVec 64) : PhpValue :=
  .set (.scalar .int) twoChains [.scalar (.long first), .scalar (.long second)]

/-- A set of two numbers is equal to the one they were added to in the other order. -/
theorem sets_not_coherent :
    OfType (.set (.scalar .int)) (setOfTwo 1 2) ∧ OfType (.set (.scalar .int)) (setOfTwo 2 1) ∧
      ownCompare (setOfTwo 1 2) (setOfTwo 2 1) = 0 ∧
      (setOfTwo 1 2).ownHash ≠ (setOfTwo 2 1).ownHash ∧
      ¬ ∀ type, Coherent (OfType type) := by
  have number (value : BitVec 64) : OfType (.scalar .int) (.scalar (.long value)) :=
    ofType_scalar_iff.mpr ⟨.int, rfl, rfl⟩
  have numbers (value other : BitVec 64) :
      ownCompare (.scalar (.long value)) (.scalar (.long other)) =
        compareInt value.toInt other.toInt := ownCompare_scalar rfl
  have table {first second : BitVec 64} (differ : compareInt first.toInt second.toInt ≠ 0) :
      twoChains.Holds [.scalar (.long first), .scalar (.long second)] :=
    twoChains_hold (by rwa [numbers])
  have typed {first second : BitVec 64} (differ : compareInt first.toInt second.toInt ≠ 0) :
      OfType (.set (.scalar .int)) (setOfTwo first second) :=
    ofType_set_iff.mpr ⟨rfl, table differ, by simp [number]⟩
  have forward : OfType (.set (.scalar .int)) (setOfTwo 1 2) := typed (by decide)
  have backward : OfType (.set (.scalar .int)) (setOfTwo 2 1) := typed (by decide)
  have equal : ownCompare (setOfTwo 1 2) (setOfTwo 2 1) = 0 := by
    rw [setOfTwo, setOfTwo, ownCompare_containers rfl rfl rfl, typeCompare_self, contentCompare,
      findValues_of_self (table (by decide)) (by simp [numbers, compareInt])]
    simp [compareNat, elements]
  have differ : (setOfTwo 1 2).ownHash ≠ (setOfTwo 2 1).ownHash := by decide
  exact ⟨forward, backward, equal, differ,
    fun coherent => differ (coherent _ _ _ forward backward equal)⟩

/-- The hashes of equal values of a type are equal when no set and no map in it can have
several different keys: the keys are mixed in the order in which they were added. -/
theorem values_coherent_iff (type : CassType) :
    Coherent (OfType type) ↔ type.FewKeys fun _ => True :=
  coherent_follows.iff_fewKeys type

end PhpValue

end PhpDriver
