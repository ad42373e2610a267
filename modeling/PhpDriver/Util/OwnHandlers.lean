import PhpDriver.Util.ScalarOrder

namespace PhpDriver

open Data

/-! `php_driver_value_compare` and `php_driver_value_hash` of values of any depth, where every
class has the functions it defines as its handlers. Counts do not overflow. -/

/-- Where the entries of a hash table are: the number of its buckets, and the positions of
the entries in the order in which the chains hold them. -/
structure Chains where
  log2NumBuckets : Nat := utInitialLog2
  order : List Nat := []

/-- A value with the tables of the sets and the maps in it. Their entries are listed in the
order of their iterators. -/
inductive PhpValue where
  | null
  | scalar (value : Scalar)
  | collection (valueType : CassType) (values : List PhpValue)
  | set (valueType : CassType) (chains : Chains) (values : List PhpValue)
  | map (keyType valueType : CassType) (chains : Chains) (entries : List (PhpValue × PhpValue))
  | tuple (types : List CassType) (values : List (Nat × PhpValue))
  | userTypeValue (types : List (List UInt8 × CassType)) (values : List (List UInt8 × PhpValue))

namespace PhpValue

def isNull : PhpValue → Bool
  | .null => true
  | _ => false

def zType : PhpValue → Nat
  | .null => 1
  | .scalar value => value.zType
  | _ => 8

mutual

def ownHash : PhpValue → BitVec 32
  | .null => 0
  | .scalar value => value.ownHash
  | .collection _ values => hashValues 0 values
  | .set _ _ values => hashValues 0 values
  | .map _ _ _ entries => hashEntries 0 entries
  | .tuple _ values => hashIndexed 0 values
  | .userTypeValue _ values => hashNamed 0 values

def hashValues (hashv : BitVec 32) : List PhpValue → BitVec 32
  | [] => hashv
  | value :: values => hashValues (combineHash hashv (ownHash value)) values

def hashEntries (hashv : BitVec 32) : List (PhpValue × PhpValue) → BitVec 32
  | [] => hashv
  | (key, value) :: entries =>
      hashEntries (combineHash (combineHash hashv (ownHash key)) (ownHash value)) entries

def hashIndexed (hashv : BitVec 32) : List (Nat × PhpValue) → BitVec 32
  | [] => hashv
  | (_, value) :: values => hashIndexed (combineHash hashv (ownHash value)) values

def hashNamed (hashv : BitVec 32) : List (List UInt8 × PhpValue) → BitVec 32
  | [] => hashv
  | (_, value) :: values => hashNamed (combineHash hashv (ownHash value)) values

end

theorem sizeOf_keys_le (entries : List (PhpValue × PhpValue)) :
    sizeOf (entries.map Prod.fst) ≤ sizeOf entries := by
  induction entries with
  | nil => simp
  | cons entry entries ih =>
      obtain ⟨key, value⟩ := entry
      simp only [List.map_cons, List.cons.sizeOf_spec, Prod.mk.sizeOf_spec]
      omega

theorem sizeOf_values_le {Key : Type} [SizeOf Key] (fields : List (Key × PhpValue)) :
    sizeOf (fields.map Prod.snd) ≤ sizeOf fields := by
  induction fields with
  | nil => simp
  | cons field fields ih =>
      obtain ⟨key, value⟩ := field
      simp only [List.map_cons, List.cons.sizeOf_spec, Prod.mk.sizeOf_spec]
      omega

mutual

def ownCompare (first second : PhpValue) : Int :=
  if first.zType ≠ second.zType then if first.zType < second.zType then -1 else 1
  else
    match first, second with
    | .null, .null => 0
    | .scalar first, .scalar second => first.compareAlike second
    | .collection firstType first, .collection secondType second =>
        thenCompare (typeCompare (.list firstType) (.list secondType))
          (thenCompare (compareNat first.length second.length) (compareValues first second))
    | .set firstType _ first, .set secondType chains second =>
        thenCompare (typeCompare (.set firstType) (.set secondType))
          (thenCompare (compareNat first.length second.length) (findValues chains first second))
    | .map firstKey firstType _ first, .map secondKey secondType chains second =>
        thenCompare (typeCompare (.map firstKey firstType) (.map secondKey secondType))
          (thenCompare (compareNat first.length second.length) (findEntries chains first second))
    | .tuple firstTypes first, .tuple secondTypes second =>
        thenCompare (typeCompare (.tuple firstTypes) (.tuple secondTypes))
          (thenCompare (compareNat first.length second.length)
            (compareValues (first.map Prod.snd) (second.map Prod.snd)))
    | .userTypeValue firstTypes first, .userTypeValue secondTypes second =>
        thenCompare (typeCompare (.userType firstTypes) (.userType secondTypes))
          (thenCompare (compareNat first.length second.length)
            (compareValues (first.map Prod.snd) (second.map Prod.snd)))
    -- different classes
    | _, _ => 1
  termination_by (sizeOf first + sizeOf second, 0)
  decreasing_by
    all_goals apply Prod.Lex.left
    all_goals simp only [collection.sizeOf_spec, set.sizeOf_spec, map.sizeOf_spec,
      tuple.sizeOf_spec, userTypeValue.sizeOf_spec]
    all_goals grind [sizeOf_values_le]

def compareValues : List PhpValue → List PhpValue → Int
  | value :: values, other :: others =>
      thenCompare (ownCompare value other) (compareValues values others)
  | _, _ => 0
  termination_by first second => (sizeOf first + sizeOf second, 0)

/-- `HASH_FIND_ZVAL`: the first position of the bucket whose key is equal. -/
def findKey (log2NumBuckets : Nat) (searched : PhpValue) (keys : List PhpValue) :
    List Nat → Option Nat
  | [] => none
  | position :: positions =>
      match _inside : keys[position]? with
      | none => findKey log2NumBuckets searched keys positions
      | some key =>
          if utBucket key.ownHash log2NumBuckets = utBucket searched.ownHash log2NumBuckets ∧
              ownCompare key searched = 0 then
            some position
          else findKey log2NumBuckets searched keys positions
  termination_by positions => (sizeOf searched + sizeOf keys, positions.length)
  decreasing_by
    · decreasing_tactic
    · apply Prod.Lex.left
      have smaller := List.sizeOf_lt_of_mem (List.mem_of_getElem? _inside)
      omega
    · decreasing_tactic

def findValues (chains : Chains) (values others : List PhpValue) : Int :=
  match values with
  | [] => 0
  | value :: values =>
      match findKey chains.log2NumBuckets value others chains.order with
      | none => 1
      | some _ => findValues chains values others
  termination_by (sizeOf values + sizeOf others, 0)

def findEntries (chains : Chains) (entries others : List (PhpValue × PhpValue)) : Int :=
  match entries with
  | [] => 0
  | (key, value) :: entries =>
      match (findKey chains.log2NumBuckets key (others.map Prod.fst) chains.order) with
      | none => 1
      | some position =>
          match _inside : others[position]? with
          | none => 1
          | some (_, other) =>
              thenCompare (ownCompare value other) (findEntries chains entries others)
  termination_by (sizeOf entries + sizeOf others, 0)
  decreasing_by
    · apply Prod.Lex.left
      simp only [List.cons.sizeOf_spec, Prod.mk.sizeOf_spec]
      grind [sizeOf_keys_le]
    · apply Prod.Lex.left
      have smaller := List.sizeOf_lt_of_mem (List.mem_of_getElem? _inside)
      simp only [List.cons.sizeOf_spec, Prod.mk.sizeOf_spec] at smaller ⊢
      omega
    · decreasing_tactic

end

@[simp] theorem zType_collection (valueType : CassType) (values : List PhpValue) :
    (collection valueType values).zType = 8 := rfl

@[simp] theorem zType_set (valueType : CassType) (chains : Chains) (values : List PhpValue) :
    (set valueType chains values).zType = 8 := rfl

@[simp] theorem zType_map (keyType valueType : CassType) (chains : Chains)
    (entries : List (PhpValue × PhpValue)) : (map keyType valueType chains entries).zType = 8 := rfl

@[simp] theorem zType_tuple (types : List CassType) (values : List (Nat × PhpValue)) :
    (tuple types values).zType = 8 := rfl

@[simp] theorem zType_userTypeValue (types : List (List UInt8 × CassType))
    (values : List (List UInt8 × PhpValue)) : (userTypeValue types values).zType = 8 := rfl

theorem ownCompare_of_zType {first second : PhpValue} (differ : first.zType ≠ second.zType) :
    ownCompare first second = compareNat first.zType second.zType := by
  rw [ownCompare.eq_def, if_pos differ, compareNat]
  grind

@[simp] theorem ownCompare_null : ownCompare .null .null = 0 := by
  simp [ownCompare]

theorem ownCompare_scalar {first second : Scalar} (types : first.zType = second.zType) :
    ownCompare (.scalar first) (.scalar second) = first.compareAlike second := by
  simp [ownCompare, zType, types]

theorem zType_scalar (value : Scalar) : (scalar value).zType = value.zType := rfl

/-! Two containers of one class are compared by their types, their sizes, and what they
hold. -/

def ownType : PhpValue → Option CassType
  | .collection valueType _ => some (.list valueType)
  | .set valueType _ _ => some (.set valueType)
  | .map keyType valueType _ _ => some (.map keyType valueType)
  | .tuple types _ => some (.tuple types)
  | .userTypeValue types _ => some (.userType types)
  | _ => none

def elements : PhpValue → List PhpValue
  | .collection _ values => values
  | .set _ _ values => values
  | .map _ _ _ entries => entries.map Prod.snd
  | .tuple _ values => values.map Prod.snd
  | .userTypeValue _ values => values.map Prod.snd
  | _ => []

def contentCompare : PhpValue → PhpValue → Int
  | .set _ _ first, .set _ chains second => findValues chains first second
  | .map _ _ _ first, .map _ _ chains second => findEntries chains first second
  | first, second => compareValues first.elements second.elements

theorem ownCompare_containers {first second : PhpValue} {own other : CassType}
    (firstType : first.ownType = some own) (secondType : second.ownType = some other)
    (sameClass : own.valueType = other.valueType) :
    ownCompare first second =
      thenCompare (typeCompare own other)
        (thenCompare (compareNat first.elements.length second.elements.length)
          (contentCompare first second)) := by
  cases first with
  | null | scalar _ => cases firstType
  | _ =>
      obtain rfl := Option.some.inj firstType
      cases second with
      | null | scalar _ => cases secondType
      | _ =>
          obtain rfl := Option.some.inj secondType
          first
            | (simp [CassType.valueType] at sameClass; done)
            | simp [ownCompare, elements, contentCompare]

theorem compareValues_eq_lexCompare {first second : List PhpValue}
    (lengths : first.length = second.length) :
    compareValues first second = lexCompare ownCompare first second := by
  induction first generalizing second with
  | nil => cases second with
    | nil => simp [compareValues, lexCompare]
    | cons other others => cases lengths
  | cons value values ih => cases second with
    | nil => cases lengths
    | cons other others =>
        rw [compareValues, lexCompare, ih (Nat.succ.inj lengths)]

theorem hashValues_eq_foldl (hashv : BitVec 32) (values : List PhpValue) :
    hashValues hashv values = (values.map ownHash).foldl combineHash hashv := by
  induction values generalizing hashv with
  | nil => rfl
  | cons value values ih => rw [hashValues, ih, List.map_cons, List.foldl_cons]

theorem hashIndexed_eq (hashv : BitVec 32) (values : List (Nat × PhpValue)) :
    hashIndexed hashv values = hashValues hashv (values.map Prod.snd) := by
  induction values generalizing hashv with
  | nil => rfl
  | cons field values ih => rw [hashIndexed, ih, List.map_cons, hashValues]

theorem hashNamed_eq (hashv : BitVec 32) (values : List (List UInt8 × PhpValue)) :
    hashNamed hashv values = hashValues hashv (values.map Prod.snd) := by
  induction values generalizing hashv with
  | nil => rfl
  | cons field values ih => rw [hashNamed, ih, List.map_cons, hashValues]

/-- The key is in the bucket that is searched, and equal to what is searched for. -/
def Matches (log2NumBuckets : Nat) (key searched : PhpValue) : Prop :=
  utBucket key.ownHash log2NumBuckets = utBucket searched.ownHash log2NumBuckets ∧
    ownCompare key searched = 0

theorem findKey_eq_none_iff {log2NumBuckets : Nat} {searched : PhpValue} {keys : List PhpValue}
    {positions : List Nat} :
    findKey log2NumBuckets searched keys positions = none ↔
      ∀ position ∈ positions, ∀ key, keys[position]? = some key →
        ¬ Matches log2NumBuckets key searched := by
  induction positions with
  | nil => simp [findKey]
  | cons position positions ih =>
      rw [findKey, List.forall_mem_cons]
      split
      · rename_i outside
        simp [ih, outside]
      · rename_i key inside
        split
        · rename_i found
          simp only [reduceCtorEq, false_iff, not_and]
          intro none
          exact absurd found (none key inside)
        · rename_i differs
          rw [ih]
          constructor
          · intro rest
            refine ⟨?_, rest⟩
            intro other same
            obtain rfl := Option.some.inj (inside.symm.trans same)
            exact differs
          · exact And.right

theorem matches_of_findKey {log2NumBuckets : Nat} {searched : PhpValue} {keys : List PhpValue}
    {positions : List Nat} {position : Nat}
    (found : findKey log2NumBuckets searched keys positions = some position) :
    ∃ key, keys[position]? = some key ∧ Matches log2NumBuckets key searched := by
  induction positions with
  | nil => simp [findKey] at found
  | cons first positions ih =>
      rw [findKey] at found
      split at found
      · exact ih found
      · rename_i key inside
        split at found
        · rename_i same
          obtain rfl := Option.some.inj found
          exact ⟨key, inside, same⟩
        · exact ih found

theorem findValues_eq_zero_iff (chains : Chains) (values others : List PhpValue) :
    findValues chains values others = 0 ↔
      ∀ value ∈ values, findKey chains.log2NumBuckets value others chains.order ≠ none := by
  induction values with
  | nil => simp [findValues]
  | cons value values ih =>
      rw [findValues, List.forall_mem_cons]
      split
      · rename_i missing
        simp [missing]
      · rename_i position found
        simp [ih, found]

theorem findEntries_cons {chains : Chains} {key value other otherValue : PhpValue}
    {entries others : List (PhpValue × PhpValue)} {position : Nat}
    (found : findKey chains.log2NumBuckets key (others.map Prod.fst) chains.order = some position)
    (at_ : others[position]? = some (other, otherValue)) :
    findEntries chains ((key, value) :: entries) others =
      thenCompare (ownCompare value otherValue) (findEntries chains entries others) := by
  rw [findEntries]
  simp only [found]
  split
  · rename_i outside
    rw [at_] at outside
    cases outside
  · rename_i inside
    rw [at_] at inside
    obtain ⟨-, rfl⟩ := Prod.mk.inj (Option.some.inj inside)
    rfl

end PhpValue

end PhpDriver
