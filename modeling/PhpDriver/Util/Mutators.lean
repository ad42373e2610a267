import PhpDriver.Data.Atomic
import PhpDriver.Map.History
import PhpDriver.Map.Iterator
import PhpDriver.Util.Built
import PhpDriver.Util.Iterated
import PhpDriver.Util.Slots
import PhpDriver.Util.Told

namespace PhpDriver

open Data

/-! The methods that change a container, with whatever they are called with. -/

/-- Why a call changes nothing. A container of another type is refused in silence. -/
inductive Refusal where
  | parameters
  | thrown (exception : Thrown)
  | silent
deriving DecidableEq

def Answer.refusal (answer : Answer) : Option Refusal :=
  if answer.result then none
  else some ((answer.thrown.map Refusal.thrown).getD .silent)

structure ParameterReaders where
  long : Zval → Option (BitVec 64)
  string : Zval → Option (List UInt8)

section

variable (zendHash : List UInt8 → BitVec 32) (readers : ParameterReaders)

namespace IteratedCollection

def addCall (collection : IteratedCollection) (arguments : List Zval) :
    Called IteratedCollection Refusal :=
  if arguments.isEmpty then { after := collection, thrown := some .parameters }
  else
    match collection.toPhpCollection.add arguments with
    | (after, .ok _) => { after := { collection with toPhpCollection := after }, thrown := none }
    | (after, .error answer) =>
        { after := { collection with toPhpCollection := after }, thrown := answer.refusal }

end IteratedCollection

def IteratedSet.addCall (set : IteratedSet) :
    List Zval → Option (Called IteratedSet Refusal)
  | [object] =>
      (setAdd zendHash set.toPhpSet object).map fun added =>
        { after := { set with toPhpSet := added.1 }, thrown := added.2.refusal }
  | _ => some { after := set, thrown := some .parameters }

def IteratedMap.setCall (map : IteratedMap) :
    List Zval → Option (Called IteratedMap Refusal)
  | [key, value] =>
      (mapSet zendHash map.toPhpMap key value).map fun changed =>
        { after := { map with toPhpMap := changed.1 }, thrown := changed.2.refusal }
  | _ => some { after := map, thrown := some .parameters }

/-- What has been refused without an exception is a value of another type. -/
def fieldRefusal (type : Option CassType) (value : Zval) : Option Thrown → Option Refusal
  | some exception => some (.thrown exception)
  | none => if type.map (validateObject value) = some .accepted then none else some .silent

def IteratedTuple.setCall (tuple : IteratedTuple) :
    List Zval → Called IteratedTuple Refusal
  | [first, value] =>
      match readers.long first with
      | none => { after := tuple, thrown := some .parameters }
      | some index =>
          let (after, thrown) := tuple.toPhpTuple.set index value
          { after := { tuple with toPhpTuple := after }
            thrown := fieldRefusal tuple.types[index.toNat]? value thrown }
  | _ => { after := tuple, thrown := some .parameters }

def IteratedUserTypeValue.setCall (userTypeValue : IteratedUserTypeValue) :
    List Zval → Called IteratedUserTypeValue Refusal
  | [first, value] =>
      match readers.string first with
      | none => { after := userTypeValue, thrown := some .parameters }
      | some name =>
          let (after, thrown) := userTypeValue.toPhpUserTypeValue.set name value
          { after := { userTypeValue with toPhpUserTypeValue := after }
            thrown := fieldRefusal (userTypeValue.types.get name) value thrown }
  | _ => { after := userTypeValue, thrown := some .parameters }

end

/-! What a call that succeeds gives. Nothing else changes, and the iterator stays where it
is. -/

namespace IteratedCollection

structure Appends (before : IteratedCollection) (arguments : List Zval)
    (after : IteratedCollection) : Prop where
  given : arguments ≠ []
  type : after.valueType = before.valueType
  position : after.position = before.position
  values : after.values.values = before.values.values ++ arguments
  kept : ∀ index object, before.values.get index = some object →
    after.values.get index = some object
  placed : ∀ position, position < arguments.length →
    after.values.get (before.nextFreeElement + position) = arguments[position]?
  count : after.count = before.count + arguments.length

end IteratedCollection

/-- The order of the elements and their places do not change. -/
structure IteratedSet.Gains (before : IteratedSet) (object : Zval) (after : IteratedSet) :
    Prop where
  type : after.valueType = before.valueType
  cursor : after.cursor = before.cursor
  index : after.iterIndex = before.iterIndex
  places : before.entries.handles <+: after.entries.handles
  present : object.meaning ∈ before.values.map Zval.meaning → after.values = before.values
  missing : object.meaning ∉ before.values.map Zval.meaning →
    after.values = before.values ++ [object]

structure IteratedMap.Changes (before : IteratedMap) (key value : Zval) (after : IteratedMap) :
    Prop where
  keyType : after.keyType = before.keyType
  valueType : after.valueType = before.valueType
  cursor : after.cursor = before.cursor
  places : before.entries.handles <+: after.entries.handles
  present : key.meaning ∈ before.keys.map Zval.meaning → after.keys = before.keys
  missing : key.meaning ∉ before.keys.map Zval.meaning → after.keys = before.keys ++ [key]
  pairs : after.pairs = before.pairs.set key.meaning value

structure IteratedTuple.Changes (before : IteratedTuple) (index : Nat) (value : Zval)
    (after : IteratedTuple) : Prop where
  inside : index < before.types.length
  types : after.types = before.types
  pos : after.pos = before.pos
  field : after.values.get index = some value
  others : ∀ other, other ≠ index → after.values.get other = before.values.get other

structure IteratedUserTypeValue.Changes (before : IteratedUserTypeValue) (name : List UInt8)
    (value : Zval) (after : IteratedUserTypeValue) : Prop where
  inside : name ∈ before.types.keys
  types : after.types = before.types
  pos : after.pos = before.pos
  field : after.values.get name = some value
  others : ∀ other, other ≠ name → after.values.get other = before.values.get other

inductive IteratedContainer where
  | collection (self : IteratedCollection)
  | set (self : IteratedSet)
  | map (self : IteratedMap)
  | tuple (self : IteratedTuple)
  | userTypeValue (self : IteratedUserTypeValue)

namespace IteratedContainer

/-- The call of the class's mutator, undefined when a value cannot be hashed. -/
def mutate (zendHash : List UInt8 → BitVec 32) (readers : ParameterReaders) :
    IteratedContainer → List Zval → Option (Called IteratedContainer Refusal)
  | .collection self, arguments => some ((self.addCall arguments).map .collection)
  | .set self, arguments => (self.addCall zendHash arguments).map (·.map .set)
  | .map self, arguments => (self.setCall zendHash arguments).map (·.map .map)
  | .tuple self, arguments => some ((self.setCall readers arguments).map .tuple)
  | .userTypeValue self, arguments =>
      some ((self.setCall readers arguments).map .userTypeValue)

/-- What the arguments ask for, from one state of the container to the next. -/
inductive Gives (readers : ParameterReaders) :
    IteratedContainer → List Zval → IteratedContainer → Prop
  | collection {before after : IteratedCollection} {arguments : List Zval}
      (appends : before.Appends arguments after) :
      Gives readers (.collection before) arguments (.collection after)
  | set {before after : IteratedSet} {object : Zval} (gains : before.Gains object after) :
      Gives readers (.set before) [object] (.set after)
  | map {before after : IteratedMap} {key value : Zval} (changes : before.Changes key value after) :
      Gives readers (.map before) [key, value] (.map after)
  | tuple {before after : IteratedTuple} {first value : Zval} {index : BitVec 64}
      (read : readers.long first = some index)
      (changes : before.Changes index.toNat value after) :
      Gives readers (.tuple before) [first, value] (.tuple after)
  | userTypeValue {before after : IteratedUserTypeValue} {first value : Zval}
      {name : List UInt8} (read : readers.string first = some name)
      (changes : before.Changes name value after) :
      Gives readers (.userTypeValue before) [first, value] (.userTypeValue after)

end IteratedContainer

/-! Any calls of the five classes, among them constructors called again and what `create`
and the decoder put into a container without asking. -/

inductive IteratedCall where
  | mutate (arguments : List Zval)
  | construct (type : CassType)
  | removeIndex (index : BitVec 64)
  | remove (key : Zval)
  | append (object : Zval)
  | putIndex (index : Nat) (object : Zval)
  | putName (name : List UInt8) (object : Zval)
  | next
  | rewind

def iteratedStep (zendHash : List UInt8 → BitVec 32) (readers : ParameterReaders) :
    IteratedContainer → IteratedCall → Option IteratedContainer
  | container, .mutate arguments =>
      (container.mutate zendHash readers arguments).map Called.after
  | .collection self, .construct (.list valueType) => some (.collection { self with valueType })
  | .collection self, .removeIndex index =>
      some (.collection { self with toPhpCollection := (self.toPhpCollection.remove index).1 })
  | .collection self, .append object =>
      some (.collection { self with toPhpCollection := collectionAdd self.toPhpCollection object })
  | .collection self, .next => some (.collection self.next)
  | .collection self, .rewind => some (.collection self.rewind)
  | .set self, .construct (.set valueType) => some (.set { self with valueType })
  | .set self, .remove object =>
      (PhpDriver.setCall self (installedHandlers zendHash, .remove object)).map .set
  | .set self, .next => self.next.map .set
  | .set self, .rewind => some (.set self.rewind)
  | .map self, .construct (.map keyType valueType) =>
      some (.map { self with keyType, valueType })
  | .map self, .remove key =>
      (mapCall self (installedHandlers zendHash, .remove key)).map .map
  | .map self, .next => self.next.map .map
  | .map self, .rewind => some (.map self.rewind)
  | .tuple self, .construct (.tuple types) => some (.tuple { self with types })
  | .tuple self, .putIndex index object =>
      some (.tuple { self with toPhpTuple := self.toPhpTuple.update index object })
  | .tuple self, .next => some (.tuple self.next)
  | .tuple self, .rewind => some (.tuple self.rewind)
  | .userTypeValue self, .construct (.userType types) =>
      some (.userTypeValue { self with types })
  | .userTypeValue self, .putName name object =>
      some (.userTypeValue
        { self with toPhpUserTypeValue := self.toPhpUserTypeValue.update name object })
  | .userTypeValue self, .next => some (.userTypeValue self.next)
  | .userTypeValue self, .rewind => some (.userTypeValue self.rewind)
  | _, _ => none

namespace IteratedContainer

inductive New : IteratedContainer → Prop
  | collection (valueType : CassType) : New (.collection { valueType })
  | set (valueType : CassType) : New (.set { valueType })
  | map (keyType valueType : CassType) : New (.map { keyType, valueType })
  | tuple (types : List CassType) : New (.tuple { types })
  | userTypeValue (types : OrderedMap (List UInt8) CassType) : New (.userTypeValue { types })

def Sound (zendHash : List UInt8 → BitVec 32) : IteratedContainer → Prop
  | .collection self => self.toPhpCollection.Indexed
  | .set self => Sifted zendHash self.entries
  | .map self => Sifted zendHash self.entries
  | _ => True

/-- When the values are not refused, the key has a hash and is not mistaken for another. -/
def Distinguishes (zendHash : List UInt8 → BitVec 32) : IteratedContainer → List Zval → Prop
  | .set self, [object] =>
      Fits self.valueType object → TellsApart zendHash self.entries object
  | .map self, [key, value] =>
      Fits self.keyType key → Fits self.valueType value → TellsApart zendHash self.entries key
  | _, _ => True

end IteratedContainer

/-! A collection checks all the arguments before it adds the first. -/

namespace IteratedCollection

section

variable {collection : PhpCollection}

theorem valueType_adds (objects : List Zval) :
    (objects.foldl collectionAdd collection).valueType = collection.valueType := by
  induction objects generalizing collection with
  | nil => rfl
  | cons object objects ih => exact ih

theorem values_adds (objects : List Zval) :
    (objects.foldl collectionAdd collection).values.values =
      collection.values.values ++ objects := by
  induction objects generalizing collection with
  | nil => simp
  | cons object objects ih =>
      rw [List.foldl_cons, ih]
      simp [collectionAdd, OrderedMap.values]

theorem get_add (object : Zval) (index : Nat) :
    (collectionAdd collection object).values.get index =
      (collection.values.get index).or
        (if collection.nextFreeElement = index then some object else none) := by
  simp only [collectionAdd, OrderedMap.get, List.find?_append, Option.map_or]
  congr 1
  by_cases same : collection.nextFreeElement = index <;> simp [same]

theorem get_adds_of_some {objects : List Zval} {index : Nat} {object : Zval}
    (there : collection.values.get index = some object) :
    (objects.foldl collectionAdd collection).values.get index = some object := by
  induction objects generalizing collection with
  | nil => exact there
  | cons added objects ih =>
      apply ih
      rw [get_add, there, Option.some_or]

theorem get_adds {objects : List Zval} (indexed : collection.Indexed)
    {position : Nat} (inside : position < objects.length) :
    (objects.foldl collectionAdd collection).values.get
      (collection.nextFreeElement + position) = objects[position]? := by
  induction objects generalizing collection position with
  | nil => cases inside
  | cons object objects ih =>
      cases position with
      | zero =>
          rw [List.foldl_cons, List.getElem?_cons_zero]
          apply get_adds_of_some
          have new : collection.nextFreeElement ∉ collection.values.keys := fun member =>
            Nat.lt_irrefl _ (indexed _ member)
          rw [Nat.add_zero, get_add, (collection.values.get_eq_none_iff _).mpr new,
            Option.none_or, if_pos rfl]
      | succ position =>
          have rest := ih (indexed.collectionAdd object) (Nat.lt_of_succ_lt_succ inside)
          rw [List.getElem?_cons_succ, ← rest, List.foldl_cons]
          congr 1
          simp only [collectionAdd]
          omega

end

theorem refusal_of_error {valueType : CassType} {arguments : List Zval} {answer : Answer}
    (refused : PhpCollection.refusedArgument valueType arguments = some answer) :
    ∃ refusal, answer.refusal = some refusal := by
  induction arguments with
  | nil => cases refused
  | cons object arguments ih =>
      unfold PhpCollection.refusedArgument at refused
      split at refused
      · obtain rfl := Option.some.inj refused
        exact ⟨_, rfl⟩
      · split at refused
        · exact ih refused
        · obtain rfl := Option.some.inj refused
          cases validateObject object valueType <;> exact ⟨_, rfl⟩

theorem addCall_atomic {collection : IteratedCollection}
    (indexed : collection.toPhpCollection.Indexed) (arguments : List Zval) :
    (collection.addCall arguments).Atomic collection (collection.Appends arguments) := by
  unfold addCall
  split
  · exact Called.atomic_thrown Refusal.parameters
  · rename_i given
    unfold PhpCollection.add
    cases refused : PhpCollection.refusedArgument collection.valueType arguments with
    | some answer =>
        obtain ⟨refusal, same⟩ := refusal_of_error refused
        simp only [same]
        exact Called.atomic_thrown refusal
    | none =>
        apply Called.atomic_returned
        exact
          { given := by simpa using given
            type := valueType_adds arguments
            position := rfl
            values := values_adds arguments
            kept := fun _ _ => get_adds_of_some
            placed := fun _ => get_adds indexed
            count := by
              have values := congrArg List.length
                (@values_adds collection.toPhpCollection arguments)
              simpa [OrderedMap.values, count] using values }

end IteratedCollection

/-! A set and a map, by how the search for the key ends. -/

section

variable {zendHash : List UInt8 → BitVec 32} {Value : Type}

theorem handles_added {head after : UtHash Zval Value} {key : Zval} {value : Value}
    (added : hashAddZval zendHash head key value = some after) :
    head.handles <+: after.handles := by
  obtain ⟨hashv, _, handles⟩ := UtHash.handles_add added
  rw [handles]
  exact List.prefix_append _ _

theorem setAdd_refused {set : PhpSet} {object : Zval} (unfit : ¬ Fits set.valueType object) :
    ∃ answer refusal, setAdd zendHash set object = some (set, answer) ∧
      answer.refusal = some refusal := by
  unfold setAdd setAddWith
  cases null : object.isNull with
  | true => exact ⟨_, _, rfl, rfl⟩
  | false =>
      cases validated : validateObject object set.valueType with
      | accepted => exact absurd ⟨null, validated⟩ unfit
      | expecting _ | mismatched => exact ⟨_, _, rfl, rfl⟩

theorem setAdd_found {set : PhpSet} {object : Zval} {handle : UtHandle Zval}
    (fits : Fits set.valueType object)
    (found : hashFindZval zendHash set.entries object = some (some handle)) :
    setAdd zendHash set object = some (set, { result := true }) := by
  simp [setAdd, setAddWith, fits.nonnull, fits.accepted, found]

theorem setAdd_missing {set : PhpSet} {object : Zval} {entries : UtHash Zval Unit}
    (fits : Fits set.valueType object)
    (missing : hashFindZval zendHash set.entries object = some none)
    (added : hashAddZval zendHash set.entries object () = some entries) :
    setAdd zendHash set object =
      some ({ set with dirty := true, entries }, { result := true }) := by
  simp [setAdd, setAddWith, fits.nonnull, fits.accepted, missing, added]

theorem mem_keys_iff (head : UtHash Zval Value) (value : CassValue) :
    value ∈ (head.elements.map (·.key)).map Zval.meaning ↔
      ∃ handle ∈ head.handles, handle.key.meaning = value := by
  simp [UtHash.handles]

theorem IteratedSet.addCall_iff {set : IteratedSet} (sifted : Sifted zendHash set.entries)
    (object : Zval) :
    (∃ called, set.addCall zendHash [object] = some called ∧
      called.Atomic set (set.Gains object)) ↔
        (Fits set.valueType object → TellsApart zendHash set.entries object) := by
  simp only [addCall]
  by_cases fits : Fits set.valueType object
  · cases hashed : valueHash zendHash object with
    | none =>
        rw [setAdd_unhashed fits hashed]
        constructor
        · intro made
          obtain ⟨called, none, _⟩ := made
          cases none
        · intro tells
          have isSome := (tells fits).hashed
          rw [hashed] at isSome
          cases isSome
    | some hashv =>
        have isSome : (valueHash zendHash object).isSome := by rw [hashed]; rfl
        cases sifted.searched isSome with
        | missing found tells new =>
            obtain ⟨entries, added, consistent, elements⟩ := sifted.consistent.add hashed ()
            rw [setAdd_missing fits found added]
            refine ⟨fun _ _ => tells, fun _ => ⟨_, rfl, Called.atomic_returned ?_⟩⟩
            exact
              { type := rfl
                cursor := rfl
                index := rfl
                places := handles_added added
                present := by
                  intro present
                  obtain ⟨handle, member, equal⟩ := (mem_keys_iff _ _).mp present
                  exact absurd equal (new handle member)
                missing := by
                  intro _
                  simp only [PhpSet.values, elements, List.map_append]
                  rfl }
        | same handle member found tells equal =>
            rw [setAdd_found fits found]
            refine ⟨fun _ _ => tells, fun _ => ⟨_, rfl, Called.atomic_returned ?_⟩⟩
            exact
              { type := rfl
                cursor := rfl
                index := rfl
                places := List.prefix_refl _
                present := fun _ => rfl
                missing := fun missing =>
                  absurd ((mem_keys_iff _ _).mpr ⟨handle, member, equal⟩) missing }
        | mistaken handle member found blind new =>
            rw [setAdd_found fits found]
            refine ⟨fun made => ?_, fun tells => absurd (tells fits) blind⟩
            obtain ⟨called, same, atomic⟩ := made
            obtain rfl := Option.some.inj same
            have gains := atomic.returned rfl
            have missing : object.meaning ∉ set.values.map Zval.meaning := by
              intro present
              obtain ⟨other, otherIn, equal⟩ := (mem_keys_iff _ _).mp present
              exact new other otherIn equal
            have lengths := congrArg List.length (gains.missing missing)
            simp at lengths
  · obtain ⟨answer, refusal, refused, silent⟩ := @setAdd_refused zendHash _ _ fits
    rw [refused]
    refine ⟨fun _ yes => absurd yes fits, fun _ => ⟨_, rfl, ?_⟩⟩
    simp only [silent]
    exact Called.atomic_thrown refusal

theorem mapSet_refused {map : PhpMap} {key value : Zval}
    (unfit : ¬ (Fits map.keyType key ∧ Fits map.valueType value)) :
    ∃ answer refusal, mapSet zendHash map key value = some (map, answer) ∧
      answer.refusal = some refusal := by
  unfold mapSet mapSetWith
  cases nullKey : key.isNull with
  | true => exact ⟨_, _, rfl, rfl⟩
  | false =>
      cases nullValue : value.isNull with
      | true => exact ⟨_, _, rfl, rfl⟩
      | false =>
          cases keyValidated : validateObject key map.keyType with
          | accepted =>
              cases validated : validateObject value map.valueType with
              | accepted =>
                  exact absurd ⟨⟨nullKey, keyValidated⟩, nullValue, validated⟩ unfit
              | expecting _ | mismatched => exact ⟨_, _, rfl, rfl⟩
          | expecting _ | mismatched => exact ⟨_, _, rfl, rfl⟩

section

variable {map : PhpMap} {key value : Zval} (keyFits : Fits map.keyType key)
  (valueFits : Fits map.valueType value)

include keyFits valueFits

theorem mapSet_found {handle : UtHandle Zval}
    (found : hashFindZval zendHash map.entries key = some (some handle)) :
    mapSet zendHash map key value =
      some ({ map with dirty := true, entries := map.entries.setValue handle value },
        { result := true }) := by
  simp [mapSet, mapSetWith, keyFits.nonnull, keyFits.accepted, valueFits.nonnull,
    valueFits.accepted, found]

theorem mapSet_missing {entries : UtHash Zval Zval}
    (missing : hashFindZval zendHash map.entries key = some none)
    (added : hashAddZval zendHash map.entries key value = some entries) :
    mapSet zendHash map key value =
      some ({ map with dirty := true, entries }, { result := true }) := by
  simp [mapSet, mapSetWith, keyFits.nonnull, keyFits.accepted, valueFits.nonnull,
    valueFits.accepted, missing, added]

end

theorem keys_setValue (head : UtHash Zval Zval) (handle : UtHandle Zval) (value : Zval) :
    (head.setValue handle value).elements.map (·.key) = head.elements.map (·.key) := by
  simp only [UtHash.setValue, List.map_map]
  apply List.map_congr_left
  intro element _
  simp only [Function.comp_apply]
  split <;> rfl

theorem pairs_set {head after : UtHash Zval Zval} {key : Zval} {value : Zval}
    (represents : UtHash.Represents Zval.meaning (valueHash zendHash) after
      (OrderedMap.set (head.elements.map fun element => (element.key.meaning, element.value))
        key.meaning value)) (map : PhpMap) (entries : map.entries = head) :
    ({ map with dirty := true, entries := after } : PhpMap).pairs =
      map.pairs.set key.meaning value := by
  rw [PhpMap.pairs_eq, PhpMap.pairs_eq, entries]
  exact represents.entries

theorem IteratedMap.setCall_iff {map : IteratedMap} (sifted : Sifted zendHash map.entries)
    (key value : Zval) :
    (∃ called, map.setCall zendHash [key, value] = some called ∧
      called.Atomic map (map.Changes key value)) ↔
        (Fits map.keyType key → Fits map.valueType value →
          TellsApart zendHash map.entries key) := by
  simp only [setCall]
  by_cases fits : Fits map.keyType key ∧ Fits map.valueType value
  · obtain ⟨keyFits, valueFits⟩ := fits
    cases hashed : valueHash zendHash key with
    | none =>
        rw [mapSet_unhashed keyFits valueFits hashed]
        constructor
        · intro made
          obtain ⟨called, none, _⟩ := made
          cases none
        · intro tells
          have isSome := (tells keyFits valueFits).hashed
          rw [hashed] at isSome
          cases isSome
    | some hashv =>
        have isSome : (valueHash zendHash key).isSome := by rw [hashed]; rfl
        cases sifted.searched isSome with
        | missing found tells new =>
            have absent : key.meaning ∉ OrderedMap.keys (map.entries.elements.map
                fun element => (element.key.meaning, element.value)) := by
              rw [sifted.represents.mem_keys_iff]
              intro present
              obtain ⟨handle, member, equal⟩ := present
              exact new handle member equal
            obtain ⟨entries, added, represents⟩ := sifted.represents.add absent isSome value
            rw [mapSet_missing keyFits valueFits found added]
            refine ⟨fun _ _ _ => tells, fun _ => ⟨_, rfl, Called.atomic_returned ?_⟩⟩
            exact
              { keyType := rfl
                valueType := rfl
                cursor := rfl
                places := handles_added added
                present := by
                  intro present
                  obtain ⟨handle, member, equal⟩ := (mem_keys_iff _ _).mp present
                  exact absurd equal (new handle member)
                missing := by
                  intro _
                  obtain ⟨_, elements⟩ := UtHash.elements_add added
                  simp only [PhpMap.keys, elements, List.map_append]
                  rfl
                pairs := pairs_set represents _ rfl }
        | same handle member found tells equal =>
            have represents := sifted.represents.setValue member value
            rw [equal] at represents
            rw [mapSet_found keyFits valueFits found]
            refine ⟨fun _ _ _ => tells, fun _ => ⟨_, rfl, Called.atomic_returned ?_⟩⟩
            exact
              { keyType := rfl
                valueType := rfl
                cursor := rfl
                places := by rw [UtHash.handles_setValue]
                present := fun _ => keys_setValue _ _ _
                missing := fun missing =>
                  absurd ((mem_keys_iff _ _).mpr ⟨handle, member, equal⟩) missing
                pairs := pairs_set represents _ rfl }
        | mistaken handle member found blind new =>
            rw [mapSet_found keyFits valueFits found]
            refine ⟨fun made => ?_, fun tells => absurd (tells keyFits valueFits) blind⟩
            obtain ⟨called, same, atomic⟩ := made
            obtain rfl := Option.some.inj same
            have changes := atomic.returned rfl
            have missing : key.meaning ∉ map.keys.map Zval.meaning := by
              intro present
              obtain ⟨other, otherIn, equal⟩ := (mem_keys_iff _ _).mp present
              exact new other otherIn equal
            have lengths := congrArg List.length (changes.missing missing)
            simp [PhpMap.keys, keys_setValue] at lengths
  · obtain ⟨answer, refusal, refused, silent⟩ := @mapSet_refused zendHash _ _ _ fits
    rw [refused]
    refine ⟨fun _ keyFits valueFits => absurd ⟨keyFits, valueFits⟩ fits,
      fun _ => ⟨_, rfl, ?_⟩⟩
    simp only [silent]
    exact Called.atomic_thrown refusal

end

/-! A tuple and a user type value set one field or nothing. -/

theorem IteratedTuple.setCall_atomic (readers : ParameterReaders) (tuple : IteratedTuple)
    {first : Zval} {index : BitVec 64} (read : readers.long first = some index) (value : Zval) :
    (tuple.setCall readers [first, value]).Atomic tuple (tuple.Changes index.toNat value) := by
  simp only [setCall, read, PhpTuple.set]
  split
  · exact Called.atomic_thrown _
  · rename_i inside
    cases typeEq : tuple.types[index.toNat]? with
    | none => exact Called.atomic_thrown Refusal.silent
    | some type =>
        cases validated : validateObject value type with
        | accepted =>
            simp only [fieldRefusal, Option.map_some, validated, if_true]
            apply Called.atomic_returned
            exact
              { inside := (List.getElem?_eq_some_iff.mp typeEq).1
                types := rfl
                pos := rfl
                field := by
                  simp only [PhpTuple.update]
                  rw [OrderedMap.get_set, if_pos rfl]
                others := by
                  intro other differ
                  simp only [PhpTuple.update]
                  rw [OrderedMap.get_set, if_neg differ] }
        | expecting expected =>
            simp only [fieldRefusal, Validation.refusal, validated]
            exact Called.atomic_thrown _
        | mismatched =>
            simp only [fieldRefusal, Validation.refusal, Option.map_some, validated]
            exact Called.atomic_thrown _

theorem IteratedUserTypeValue.setCall_atomic (readers : ParameterReaders)
    (userTypeValue : IteratedUserTypeValue) {first : Zval} {name : List UInt8}
    (read : readers.string first = some name) (value : Zval) :
    (userTypeValue.setCall readers [first, value]).Atomic userTypeValue
      (userTypeValue.Changes name value) := by
  simp only [setCall, read, PhpUserTypeValue.set]
  cases typeEq : userTypeValue.types.get name with
  | none => exact Called.atomic_thrown _
  | some type =>
      cases validated : validateObject value type with
      | accepted =>
          simp only [fieldRefusal, Option.map_some, validated, if_true]
          apply Called.atomic_returned
          exact
            { inside := by
                rw [OrderedMap.mem_keys_iff, typeEq]
                rfl
              types := rfl
              pos := rfl
              field := by
                simp only [PhpUserTypeValue.update]
                rw [OrderedMap.get_set, if_pos rfl]
              others := by
                intro other differ
                simp only [PhpUserTypeValue.update]
                rw [OrderedMap.get_set, if_neg differ] }
      | expecting expected =>
          simp only [fieldRefusal, Validation.refusal, validated]
          exact Called.atomic_thrown _
      | mismatched =>
          simp only [fieldRefusal, Validation.refusal, Option.map_some, validated]
          exact Called.atomic_thrown _

namespace IteratedContainer

variable {zendHash : List UInt8 → BitVec 32} {readers : ParameterReaders}

theorem sound_new {container : IteratedContainer} (new : New container) :
    container.Sound zendHash := by
  cases new with
  | collection valueType => exact .empty valueType
  | set valueType | map keyType valueType => exact .empty
  | tuple types | userTypeValue types => trivial

theorem sound_setAdd {set next : PhpSet} {object : Zval} {answer : Answer}
    (sifted : Sifted zendHash set.entries)
    (taken : PhpDriver.setAdd zendHash set object = some (next, answer)) :
    Sifted zendHash next.entries := by
  cases (setAdd_cases taken).2 with
  | inl same => rwa [same]
  | inr grown => exact sifted.insert grown.2.1 grown.2.2

theorem sound_setDel {set next : PhpSet} {object : Zval} {answer : Answer}
    (sifted : Sifted zendHash set.entries)
    (taken : PhpDriver.setDel zendHash set object = some (next, answer)) :
    Sifted zendHash next.entries := by
  cases (setDel_cases taken).2 with
  | inl same => rwa [same]
  | inr removed =>
      obtain ⟨handle, found, entries⟩ := removed
      rw [entries]
      exact sifted.delete (sifted.consistent.mem_of_find found)

theorem sound_mapSet {map next : PhpMap} {key value : Zval} {answer : Answer}
    (sifted : Sifted zendHash map.entries)
    (taken : PhpDriver.mapSet zendHash map key value = some (next, answer)) :
    Sifted zendHash next.entries := by
  cases (mapSet_cases taken).2.2 with
  | inl same => rwa [same]
  | inr changed =>
      cases changed.2.2 with
      | inl grown => exact sifted.insert grown.1 grown.2
      | inr replaced =>
          obtain ⟨handle, _, entries⟩ := replaced
          rw [entries]
          exact sifted.setValue handle value

theorem sound_mapDel {map next : PhpMap} {key : Zval} {answer : Answer}
    (sifted : Sifted zendHash map.entries)
    (taken : PhpDriver.mapDel zendHash map key = some (next, answer)) :
    Sifted zendHash next.entries := by
  cases (mapDel_cases taken).2.2 with
  | inl same => rwa [same]
  | inr removed =>
      obtain ⟨handle, found, entries⟩ := removed
      rw [entries]
      exact sifted.delete (sifted.consistent.mem_of_find found)

theorem sound_mutate {container : IteratedContainer} (sound : container.Sound zendHash)
    {arguments : List Zval} {called : Called IteratedContainer Refusal}
    (made : container.mutate zendHash readers arguments = some called) :
    called.after.Sound zendHash := by
  cases container with
  | collection self =>
      obtain rfl := Option.some.inj made
      simp only [Called.map, IteratedCollection.addCall]
      split
      · exact sound
      · unfold PhpCollection.add
        cases PhpCollection.refusedArgument self.valueType arguments with
        | some answer => exact sound
        | none => exact PhpCollection.Indexed.collectionAdds sound arguments
  | set self =>
      obtain ⟨added, addedTo, rfl⟩ := Option.map_eq_some_iff.mp made
      unfold IteratedSet.addCall at addedTo
      split at addedTo
      · obtain ⟨result, taken, rfl⟩ := Option.map_eq_some_iff.mp addedTo
        exact sound_setAdd sound taken
      · obtain rfl := Option.some.inj addedTo
        exact sound
  | map self =>
      obtain ⟨changed, changedTo, rfl⟩ := Option.map_eq_some_iff.mp made
      unfold IteratedMap.setCall at changedTo
      split at changedTo
      · obtain ⟨result, taken, rfl⟩ := Option.map_eq_some_iff.mp changedTo
        exact sound_mapSet sound taken
      · obtain rfl := Option.some.inj changedTo
        exact sound
  | tuple self | userTypeValue self =>
      obtain rfl := Option.some.inj made
      trivial

theorem sound_step {container next : IteratedContainer} {call : IteratedCall}
    (sound : container.Sound zendHash)
    (taken : iteratedStep zendHash readers container call = some next) :
    next.Sound zendHash := by
  unfold iteratedStep at taken
  split at taken
  case h_1 =>
    obtain ⟨called, made, rfl⟩ := Option.map_eq_some_iff.mp taken
    exact sound_mutate sound made
  case h_3 =>
    obtain rfl := Option.some.inj taken
    exact PhpCollection.Indexed.collectionDel sound _
  case h_4 =>
    obtain rfl := Option.some.inj taken
    exact PhpCollection.Indexed.collectionAdd sound _
  case h_5 self =>
    obtain rfl := Option.some.inj taken
    unfold IteratedCollection.next
    cases self.currentEntry <;> exact sound
  case h_8 =>
    obtain ⟨left, leftBy, rfl⟩ := Option.map_eq_some_iff.mp taken
    obtain ⟨result, removed, rfl⟩ := Option.map_eq_some_iff.mp leftBy
    exact sound_setDel sound removed
  case h_12 =>
    obtain ⟨left, leftBy, rfl⟩ := Option.map_eq_some_iff.mp taken
    obtain ⟨result, removed, rfl⟩ := Option.map_eq_some_iff.mp leftBy
    exact sound_mapDel sound removed
  case h_9 | h_13 =>
    obtain ⟨moved, movedTo, rfl⟩ := Option.map_eq_some_iff.mp taken
    obtain ⟨cursor, _, rfl⟩ := Option.map_eq_some_iff.mp movedTo
    exact sound
  case h_23 => cases taken
  all_goals
    obtain rfl := Option.some.inj taken
    exact sound

theorem sound_run {first last : IteratedContainer} {calls : List IteratedCall} (new : New first)
    (run : Run (iteratedStep zendHash readers) (fun _ _ => True) first calls last) :
    last.Sound zendHash :=
  run.invariant (fun _ _ _ sound _ taken => sound_step sound taken) (sound_new new)

/-- A call is atomic: it has a result, and either it is refused and leaves the container as
it was, or it gives what its arguments ask for. -/
def Atomic (zendHash : List UInt8 → BitVec 32) (readers : ParameterReaders)
    (container : IteratedContainer) (arguments : List Zval) : Prop :=
  ∃ called, container.mutate zendHash readers arguments = some called ∧
    called.Atomic container (container.Gives readers arguments)

theorem atomic_parameters {container : IteratedContainer} {arguments : List Zval}
    (refused : container.mutate zendHash readers arguments =
      some { after := container, thrown := some .parameters }) :
    container.Atomic zendHash readers arguments :=
  ⟨_, refused, Called.atomic_thrown Refusal.parameters⟩

theorem atomic_set_iff {self : IteratedSet} (sifted : Sifted zendHash self.entries)
    (object : Zval) :
    (IteratedContainer.set self).Atomic zendHash readers [object] ↔
      (Fits self.valueType object → TellsApart zendHash self.entries object) := by
  rw [← IteratedSet.addCall_iff sifted object]
  constructor
  · intro made
    obtain ⟨called, taken, atomic⟩ := made
    obtain ⟨added, addedTo, rfl⟩ := Option.map_eq_some_iff.mp taken
    refine ⟨added, addedTo, atomic.of_map (fun _ _ => IteratedContainer.set.inj) ?_⟩
    intro after gives
    cases gives with
    | set gains => exact gains
  · intro made
    obtain ⟨called, taken, atomic⟩ := made
    exact ⟨_, by rw [mutate, taken]; rfl, atomic.map fun _ => .set⟩

theorem atomic_map_iff {self : IteratedMap} (sifted : Sifted zendHash self.entries)
    (key value : Zval) :
    (IteratedContainer.map self).Atomic zendHash readers [key, value] ↔
      (Fits self.keyType key → Fits self.valueType value →
        TellsApart zendHash self.entries key) := by
  rw [← IteratedMap.setCall_iff sifted key value]
  constructor
  · intro made
    obtain ⟨called, taken, atomic⟩ := made
    obtain ⟨changed, changedTo, rfl⟩ := Option.map_eq_some_iff.mp taken
    refine ⟨changed, changedTo, atomic.of_map (fun _ _ => IteratedContainer.map.inj) ?_⟩
    intro after gives
    cases gives with
    | map changes => exact changes
  · intro made
    obtain ⟨called, taken, atomic⟩ := made
    exact ⟨_, by rw [mutate, taken]; rfl, atomic.map fun _ => .map⟩

theorem atomic_tuple (self : IteratedTuple) (arguments : List Zval) :
    (IteratedContainer.tuple self).Atomic zendHash readers arguments := by
  cases arguments with
  | nil => exact atomic_parameters rfl
  | cons first arguments =>
      cases arguments with
      | nil => exact atomic_parameters rfl
      | cons value arguments =>
          cases arguments with
          | cons _ _ => exact atomic_parameters rfl
          | nil =>
              cases read : readers.long first with
              | none =>
                  apply atomic_parameters
                  simp [mutate, IteratedTuple.setCall, read, Called.map]
              | some index =>
                  have atomic := self.setCall_atomic readers read value
                  exact ⟨_, rfl, atomic.map fun _ => .tuple read⟩

theorem atomic_userTypeValue (self : IteratedUserTypeValue) (arguments : List Zval) :
    (IteratedContainer.userTypeValue self).Atomic zendHash readers arguments := by
  cases arguments with
  | nil => exact atomic_parameters rfl
  | cons first arguments =>
      cases arguments with
      | nil => exact atomic_parameters rfl
      | cons value arguments =>
          cases arguments with
          | cons _ _ => exact atomic_parameters rfl
          | nil =>
              cases read : readers.string first with
              | none =>
                  apply atomic_parameters
                  simp [mutate, IteratedUserTypeValue.setCall, read, Called.map]
              | some name =>
                  have atomic := self.setCall_atomic readers read value
                  exact ⟨_, rfl, atomic.map fun _ => .userTypeValue read⟩

theorem atomic_iff {container : IteratedContainer} (sound : container.Sound zendHash)
    (arguments : List Zval) :
    container.Atomic zendHash readers arguments ↔ container.Distinguishes zendHash arguments := by
  cases container with
  | collection self =>
      have atomic := IteratedCollection.addCall_atomic sound arguments
      exact iff_of_true ⟨_, rfl, atomic.map fun _ => .collection⟩ trivial
  | set self =>
      cases arguments with
      | nil => exact iff_of_true (atomic_parameters rfl) trivial
      | cons object arguments =>
          cases arguments with
          | nil => exact atomic_set_iff sound object
          | cons _ _ => exact iff_of_true (atomic_parameters rfl) trivial
  | map self =>
      cases arguments with
      | nil => exact iff_of_true (atomic_parameters rfl) trivial
      | cons key arguments =>
          cases arguments with
          | nil => exact iff_of_true (atomic_parameters rfl) trivial
          | cons value arguments =>
              cases arguments with
              | nil => exact atomic_map_iff sound key value
              | cons _ _ => exact iff_of_true (atomic_parameters rfl) trivial
  | tuple self => exact iff_of_true (atomic_tuple self arguments) trivial
  | userTypeValue self => exact iff_of_true (atomic_userTypeValue self arguments) trivial

end IteratedContainer

def strictReaders : ParameterReaders where
  long
    | .scalar (.long value) => some value
    | _ => none
  string
    | .scalar (.string bytes) => some bytes
    | _ => none

end PhpDriver
