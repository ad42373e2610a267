import Mathlib.Data.List.Induction
import Mathlib.Data.List.Nodup

namespace PhpDriver.Data

/-! Finite maps whose keys are listed in the order in which they were first set. With
values in `Unit` they are finite sets. -/

/-- A step of a history that ends in `last` is `last` itself or lies before it. -/
theorem append_singleton_eq_iff {Step : Type} {changes before after : List Step}
    {last step : Step} :
    changes ++ [last] = before ++ step :: after ↔
      (after = [] ∧ last = step ∧ changes = before) ∨
        ∃ shorter, after = shorter ++ [last] ∧ changes = before ++ step :: shorter := by
  induction after using List.reverseRecOn with
  | nil => simp [List.append_singleton_inj, and_comm]
  | append_singleton shorter other _ =>
      rw [← List.cons_append, ← List.append_assoc, List.append_singleton_inj]
      constructor
      · rintro ⟨same, rfl⟩
        exact Or.inr ⟨shorter, rfl, same⟩
      · rintro (⟨empty, _⟩ | ⟨found, same, rfl⟩)
        · simp at empty
        · obtain ⟨rfl, rfl⟩ := List.append_singleton_inj.mp same
          exact ⟨rfl, rfl⟩

abbrev OrderedMap (Key Value : Type) := List (Key × Value)

namespace OrderedMap

variable {Key Value : Type} [DecidableEq Key]

def keys (map : OrderedMap Key Value) : List Key :=
  List.map Prod.fst map

def values (map : OrderedMap Key Value) : List Value :=
  List.map Prod.snd map

def get (map : OrderedMap Key Value) (key : Key) : Option Value :=
  (List.find? (fun entry => entry.1 = key) map).map Prod.snd

def replaceEntry (key : Key) (value : Value) (entry : Key × Value) : Key × Value :=
  if entry.1 = key then (key, value) else entry

def set (map : OrderedMap Key Value) (key : Key) (value : Value) : OrderedMap Key Value :=
  if key ∈ map.keys then List.map (replaceEntry key value) map else map ++ [(key, value)]

def erase (map : OrderedMap Key Value) (key : Key) : OrderedMap Key Value :=
  List.filter (fun entry => entry.1 ≠ key) map

inductive Change (Key Value : Type) where
  | set (key : Key) (value : Value)
  | erase (key : Key)
deriving DecidableEq

def change (map : OrderedMap Key Value) : Change Key Value → OrderedMap Key Value
  | .set key value => map.set key value
  | .erase key => map.erase key

def Change.key : Change Key Value → Key
  | .set key _ => key
  | .erase key => key

section

variable (map : OrderedMap Key Value) (key : Key) (value : Value)

@[simp] theorem replaceEntry_fst (entry : Key × Value) :
    (replaceEntry key value entry).1 = entry.1 := by
  by_cases same : entry.1 = key <;> simp [replaceEntry, same]

theorem keys_set :
    (map.set key value).keys = if key ∈ map.keys then map.keys else map.keys ++ [key] := by
  rw [set]
  split
  · rw [keys, List.map_map, keys]
    exact List.map_congr_left fun entry _ => replaceEntry_fst key value entry
  · simp [keys]

theorem keys_erase : (map.erase key).keys = map.keys.filter (· ≠ key) := by
  rw [erase, keys, keys, List.filter_map]
  rfl

theorem mem_keys_iff : key ∈ map.keys ↔ (map.get key).isSome := by
  simp [keys, get]

theorem get_eq_none_iff : map.get key = none ↔ key ∉ map.keys := by
  rw [mem_keys_iff]
  simp

theorem get_map {Other : Type} (change : Value → Other) :
    OrderedMap.get (List.map (fun entry => (entry.1, change entry.2)) map) key =
      (map.get key).map change := by
  rw [get, get, List.find?_map, Option.map_map, Option.map_map]
  rfl

theorem get_eq_some_of_mem {map : OrderedMap Key Value} (nodup : map.keys.Nodup) {key : Key}
    {value : Value} (member : (key, value) ∈ map) : map.get key = some value := by
  have present : key ∈ map.keys := List.mem_map_of_mem member
  obtain ⟨found, got⟩ := Option.isSome_iff_exists.mp ((mem_keys_iff map key).mp present)
  obtain ⟨entry, search, rfl⟩ := Option.map_eq_some_iff.mp got
  have sameKey : entry.1 = key := by simpa using List.find?_some search
  have same := List.inj_on_of_nodup_map nodup (List.mem_of_find?_eq_some search) member sameKey
  rw [got, same]

theorem mem_of_get {map : OrderedMap Key Value} {key : Key} {value : Value}
    (got : map.get key = some value) : (key, value) ∈ map := by
  obtain ⟨entry, search, rfl⟩ := Option.map_eq_some_iff.mp got
  have sameKey : entry.1 = key := by simpa using List.find?_some search
  subst sameKey
  exact List.mem_of_find?_eq_some search

theorem forall_getElem?_iff {Other : Type} {first : OrderedMap Key Value}
    {second : OrderedMap Key Other} (same : first.keys = second.keys)
    (nodup : first.keys.Nodup) {holds : Key → Value → Other → Prop} :
    (∀ (index : Nat) key value other, first[index]? = some (key, value) →
        (List.map Prod.snd second)[index]? = some other → holds key value other) ↔
      ∀ key value other, first.get key = some value → second.get key = some other →
        holds key value other := by
  have keyAt (index : Nat) (key : Key) (value : Value) (entry : Key × Other)
      (firstAt : first[index]? = some (key, value)) (secondAt : second[index]? = some entry) :
      key = entry.1 := by
    have firstKey : first.keys[index]? = some key := by
      rw [keys, List.getElem?_map, firstAt]
      rfl
    have secondKey : second.keys[index]? = some entry.1 := by
      rw [keys, List.getElem?_map, secondAt]
      rfl
    rw [same, secondKey] at firstKey
    exact (Option.some.inj firstKey).symm
  constructor
  · intro all key value other firstGot secondGot
    obtain ⟨index, firstAt⟩ := List.getElem?_of_mem (mem_of_get firstGot)
    have inside : index < second.length := by
      have inFirst := (List.getElem?_eq_some_iff.mp firstAt).1
      have lengths := congrArg List.length same
      rw [keys, keys, List.length_map, List.length_map] at lengths
      omega
    have secondAt : second[index]? = some second[index] := List.getElem?_eq_getElem inside
    have sameKey := keyAt index key value _ firstAt secondAt
    refine all index key value other firstAt ?_
    have got : second.get key = some second[index].2 := by
      rw [sameKey]
      exact get_eq_some_of_mem (by rwa [← same]) (List.getElem_mem inside)
    rw [secondGot] at got
    rw [List.getElem?_map, secondAt, Option.map_some, ← got]
  · intro all index key value other firstAt secondAt
    rw [List.getElem?_map, Option.map_eq_some_iff] at secondAt
    obtain ⟨entry, secondAt, rfl⟩ := secondAt
    have sameKey := keyAt index key value entry firstAt secondAt
    refine all key value entry.2 (get_eq_some_of_mem nodup (List.mem_of_getElem? firstAt)) ?_
    rw [sameKey]
    exact get_eq_some_of_mem (by rwa [← same]) (List.mem_of_getElem? secondAt)

theorem get_set (other : Key) :
    (map.set key value).get other = if other = key then some value else map.get other := by
  rw [set]
  split
  · rename_i present
    simp only [get, List.find?_map, Function.comp_def, replaceEntry_fst, Option.map_map]
    by_cases same : other = key
    · subst same
      rw [if_pos rfl]
      obtain ⟨entry, found⟩ := Option.isSome_iff_exists.mp
        ((Option.isSome_map ..).symm.trans ((mem_keys_iff map other).mp present))
      have keyEq : entry.1 = other := by simpa using List.find?_some found
      simp [found, replaceEntry, keyEq]
    · rw [if_neg same]
      cases found : List.find? (fun entry => entry.1 = other) map with
      | none => rfl
      | some entry =>
          have keyEq : entry.1 = other := by simpa using List.find?_some found
          simp [replaceEntry, keyEq, same]
  · rename_i missing
    have notThere := (get_eq_none_iff map key).mpr missing
    simp only [get, List.find?_append, Option.map_or]
    by_cases same : other = key
    · subst same
      rw [get] at notThere
      simp [notThere]
    · have differs : key ≠ other := fun equal => same equal.symm
      simp [same, differs]

theorem get_erase (other : Key) :
    (map.erase key).get other = if other = key then none else map.get other := by
  by_cases same : other = key
  · subst same
    rw [if_pos rfl, get_eq_none_iff, keys_erase]
    simp
  · rw [if_neg same, get, get, erase, List.find?_filter]
    congr 2
    funext entry
    by_cases there : entry.1 = other <;> simp [there, same]

theorem set_unit_of_mem {map : OrderedMap Key Unit} {key : Key} (member : key ∈ map.keys) :
    map.set key () = map := by
  rw [set, if_pos member]
  conv_rhs => rw [← List.map_id map]
  apply List.map_congr_left
  intro entry _
  by_cases same : entry.1 = key <;> simp [replaceEntry, same, Prod.ext_iff]

theorem mem_set {map : OrderedMap Key Value} {key : Key} {value : Value}
    {entry : Key × Value} (member : entry ∈ map.set key value) :
    entry = (key, value) ∨ entry ∈ map := by
  rw [set] at member
  split at member
  · obtain ⟨old, oldMember, rfl⟩ := List.mem_map.mp member
    rw [replaceEntry]
    split
    · exact Or.inl rfl
    · exact Or.inr oldMember
  · rw [List.mem_append, List.mem_singleton] at member
    exact member.symm

theorem erase_of_not_mem (missing : key ∉ map.keys) : map.erase key = map := by
  rw [erase, List.filter_eq_self]
  intro entry member
  have different : entry.1 ≠ key := by
    rintro rfl
    exact missing (List.mem_map_of_mem member)
  simpa using different

theorem nodup_set (nodup : map.keys.Nodup) : (map.set key value).keys.Nodup := by
  rw [keys_set]
  split
  · exact nodup
  · rename_i missing
    simp only [List.nodup_append', List.nodup_singleton, List.disjoint_singleton]
    exact ⟨nodup, trivial, missing⟩

theorem nodup_erase (nodup : map.keys.Nodup) : (map.erase key).keys.Nodup := by
  rw [keys_erase]
  exact nodup.filter _

theorem countP_erase (nodup : map.keys.Nodup) (holds : Value → Bool) :
    (map.erase key).values.countP holds + (map.get key).toList.countP holds =
      map.values.countP holds := by
  induction map with
  | nil => rfl
  | cons entry map ih =>
      obtain ⟨missing, nodup⟩ := List.nodup_cons.mp nodup
      by_cases same : entry.1 = key
      · subst same
        have rest : OrderedMap.erase (entry :: map) entry.1 = map := by
          rw [← erase_of_not_mem map entry.1 missing, erase, erase]
          simp
        have found : OrderedMap.get (entry :: map) entry.1 = some entry.2 := by simp [get]
        rw [rest, found, values, values, List.map_cons, List.countP_cons]
        simp
      · have rest : OrderedMap.erase (entry :: map) key = entry :: OrderedMap.erase map key := by
          simp [erase, same]
        have found : OrderedMap.get (entry :: map) key = OrderedMap.get map key := by
          simp [get, same]
        have count := ih nodup
        rw [values, values] at count
        rw [rest, found, values, values, List.map_cons, List.countP_cons, List.map_cons,
          List.countP_cons]
        omega

/-- A value that is set is new or takes the place of the old one. -/
theorem countP_set (nodup : map.keys.Nodup) (holds : Value → Bool) :
    (map.set key value).values.countP holds + (map.get key).toList.countP holds =
      map.values.countP holds + [value].countP holds := by
  by_cases present : key ∈ map.keys
  · rw [set, if_pos present]
    induction map with
    | nil => cases present
    | cons entry map ih =>
        obtain ⟨missing, nodup⟩ := List.nodup_cons.mp nodup
        by_cases same : entry.1 = key
        · subst same
          have rest : List.map (replaceEntry entry.1 value) map = map := by
            conv_rhs => rw [← List.map_id map]
            apply List.map_congr_left
            intro other member
            have different : other.1 ≠ entry.1 := fun same =>
              missing (List.mem_map.mpr ⟨other, member, same⟩)
            simp [replaceEntry, different]
          have found : OrderedMap.get (entry :: map) entry.1 = some entry.2 := by simp [get]
          rw [found, List.map_cons, rest]
          simp [values, replaceEntry, List.countP_cons]
          omega
        · have later : key ∈ OrderedMap.keys map := by
            simpa [keys, Ne.symm same] using present
          have found : OrderedMap.get (entry :: map) key = OrderedMap.get map key := by
            simp [get, same]
          have kept : replaceEntry key value entry = entry := by simp [replaceEntry, same]
          have count := ih nodup later
          rw [values, values] at count
          rw [found, List.map_cons, kept, values, values, List.map_cons, List.countP_cons,
            List.map_cons, List.countP_cons]
          omega
  · have none_ := (get_eq_none_iff map key).mpr present
    rw [set, if_neg present, none_]
    simp [values]

theorem length_change_le (step : Change Key Value) : (map.change step).length ≤ map.length + 1 := by
  cases step with
  | set key value =>
      rw [change, set]
      split <;> simp
  | erase key => exact Nat.le_succ_of_le (List.length_filter_le _ _)

theorem get_change (step : Change Key Value) :
    (map.change step).get key =
      if key = step.key then (match step with | .set _ value => some value | .erase _ => none)
      else map.get key := by
  cases step with
  | set other value => exact get_set map other value key
  | erase other => exact get_erase map other key

end

/-- The value of a key is the one it was last set to, unless it was erased later. -/
theorem get_changes_eq_some_iff (changes : List (Change Key Value)) (key : Key)
    (value : Value) :
    (changes.foldl change []).get key = some value ↔
      ∃ before after, changes = before ++ .set key value :: after ∧
        ∀ step ∈ after, step.key ≠ key := by
  induction changes using List.reverseRecOn with
  | nil => simp [get]
  | append_singleton changes last ih =>
      rw [List.foldl_append, List.foldl_cons, List.foldl_nil, get_change]
      simp only [append_singleton_eq_iff]
      constructor
      · split
        · rename_i same
          intro found
          cases last with
          | set other otherValue =>
              obtain rfl := Option.some.inj found
              obtain rfl : key = other := same
              exact ⟨changes, [], Or.inl ⟨rfl, rfl, rfl⟩, by simp⟩
          | erase other => cases found
        · rename_i differs
          intro found
          obtain ⟨before, after, rfl, untouched⟩ := ih.mp found
          refine ⟨before, after ++ [last], Or.inr ⟨after, rfl, rfl⟩, ?_⟩
          intro step member
          rcases List.mem_append.mp member with old | new
          · exact untouched step old
          · rw [List.mem_singleton.mp new]
            exact fun same => differs same.symm
      · rintro ⟨before, after, ⟨rfl, rfl, rfl⟩ | ⟨shorter, rfl, rfl⟩, untouched⟩
        · simp [Change.key]
        · have differs := untouched last (by simp)
          rw [if_neg fun same => differs same.symm]
          exact ih.mpr ⟨before, shorter, rfl, fun step member =>
            untouched step (List.mem_append_left _ member)⟩

theorem mem_keys_changes_iff (changes : List (Change Key Value)) (key : Key) :
    key ∈ (changes.foldl change []).keys ↔
      ∃ before value after, changes = before ++ .set key value :: after ∧
        .erase key ∉ after := by
  induction changes using List.reverseRecOn with
  | nil => simp [keys]
  | append_singleton changes last ih =>
      rw [List.foldl_append, List.foldl_cons, List.foldl_nil, mem_keys_iff, get_change]
      simp only [append_singleton_eq_iff]
      constructor
      · intro present
        by_cases same : key = last.key
        · cases last with
          | set other value =>
              obtain rfl : key = other := same
              exact ⟨changes, value, [], Or.inl ⟨rfl, rfl, rfl⟩, by simp⟩
          | erase other =>
              rw [if_pos same] at present
              cases present
        · rw [if_neg same, ← mem_keys_iff] at present
          obtain ⟨before, value, after, rfl, kept⟩ := ih.mp present
          refine ⟨before, value, after ++ [last], Or.inr ⟨after, rfl, rfl⟩, ?_⟩
          rw [List.mem_append, List.mem_singleton]
          rintro (old | rfl)
          · exact kept old
          · exact same rfl
      · rintro ⟨before, value, after, ⟨rfl, rfl, rfl⟩ | ⟨shorter, rfl, rfl⟩, kept⟩
        · simp [Change.key]
        · rw [List.mem_append, List.mem_singleton, not_or] at kept
          have there := ih.mpr ⟨before, value, shorter, rfl, kept.1⟩
          rw [mem_keys_iff] at there
          by_cases same : key = last.key
          · cases last with
            | set other otherValue => simp [same]
            | erase other => exact absurd (by rw [same]; rfl) kept.2
          · rwa [if_neg same]

/-! Histories of other actions, some of which change the map. -/

section

variable {Action : Type} (changes : Action → Option (Change Key Value))

theorem filterMap_eq_split_iff {Other : Type} {select : Action → Option Other}
    {actions : List Action} {before : List Other} {step : Other} {after : List Other} :
    actions.filterMap select = before ++ step :: after ↔
      ∃ first action last, actions = first ++ action :: last ∧ select action = some step ∧
        first.filterMap select = before ∧ last.filterMap select = after := by
  constructor
  · intro same
    obtain ⟨first, rest, rfl, firstSame, restSame⟩ := List.filterMap_eq_append_iff.mp same
    obtain ⟨skipped, action, last, rfl, none, selected, lastSame⟩ :=
      List.filterMap_eq_cons_iff.mp restSame
    refine ⟨first ++ skipped, action, last, by simp, selected, ?_, lastSame⟩
    rw [List.filterMap_append, firstSame, List.filterMap_eq_nil_iff.mpr none,
      List.append_nil]
  · rintro ⟨first, action, last, rfl, selected, rfl, rfl⟩
    rw [List.filterMap_append, List.filterMap_cons_some selected]

theorem get_history_eq_some_iff (actions : List Action) (key : Key) (value : Value) :
    ((actions.filterMap changes).foldl change []).get key = some value ↔
      ∃ before action after, actions = before ++ action :: after ∧
        changes action = some (.set key value) ∧
        ∀ later ∈ after, ∀ step, changes later = some step → step.key ≠ key := by
  rw [get_changes_eq_some_iff]
  simp only [filterMap_eq_split_iff]
  constructor
  · rintro ⟨_, _, ⟨before, action, after, rfl, set, rfl, rfl⟩, untouched⟩
    refine ⟨before, action, after, rfl, set, ?_⟩
    intro later member step changed
    exact untouched step (List.mem_filterMap.mpr ⟨later, member, changed⟩)
  · rintro ⟨before, action, after, rfl, set, untouched⟩
    refine ⟨_, _, ⟨before, action, after, rfl, set, rfl, rfl⟩, ?_⟩
    intro step member
    obtain ⟨later, laterIn, changed⟩ := List.mem_filterMap.mp member
    exact untouched later laterIn step changed

theorem mem_keys_history_iff (actions : List Action) (key : Key) :
    key ∈ ((actions.filterMap changes).foldl change []).keys ↔
      ∃ before action value after, actions = before ++ action :: after ∧
        changes action = some (.set key value) ∧
        ∀ later ∈ after, changes later ≠ some (.erase key) := by
  rw [mem_keys_changes_iff]
  simp only [filterMap_eq_split_iff]
  constructor
  · rintro ⟨_, value, _, ⟨before, action, after, rfl, set, rfl, rfl⟩, kept⟩
    refine ⟨before, action, value, after, rfl, set, ?_⟩
    intro later member erased
    exact kept (List.mem_filterMap.mpr ⟨later, member, erased⟩)
  · rintro ⟨before, action, value, after, rfl, set, kept⟩
    refine ⟨_, value, _, ⟨before, action, after, rfl, set, rfl, rfl⟩, ?_⟩
    intro member
    obtain ⟨later, laterIn, erased⟩ := List.mem_filterMap.mp member
    exact kept later laterIn erased

end

def add (map : OrderedMap Key Value) (key : Key) (value : Value) : OrderedMap Key Value :=
  if key ∈ map.keys then map else map ++ [(key, value)]

def addAll (map : OrderedMap Key Value) (entries : List (Key × Value)) : OrderedMap Key Value :=
  entries.foldl (fun map entry => map.add entry.1 entry.2) map

theorem nodup_add {map : OrderedMap Key Value} (nodup : map.keys.Nodup) (key : Key)
    (value : Value) : (map.add key value).keys.Nodup := by
  rw [add]
  split
  · exact nodup
  · rename_i missing
    rw [keys, List.map_append]
    exact List.nodup_append_comm.mp (List.nodup_cons.mpr ⟨missing, nodup⟩)

theorem nodup_addAll {map : OrderedMap Key Value} (nodup : map.keys.Nodup)
    (entries : List (Key × Value)) : (map.addAll entries).keys.Nodup :=
  @List.foldlRecOn _ _ (fun map : OrderedMap Key Value => map.keys.Nodup) entries _ map nodup
    fun _ nodup entry _ => nodup_add nodup entry.1 entry.2

theorem mem_addAll {map : OrderedMap Key Value} {entries : List (Key × Value)}
    {entry : Key × Value} (member : entry ∈ map.addAll entries) :
    entry ∈ map ∨ entry ∈ entries := by
  induction entries generalizing map with
  | nil => exact Or.inl member
  | cons first entries ih =>
      rcases ih member with old | rest
      · change entry ∈ map.add first.1 first.2 at old
        rw [add] at old
        split at old
        · exact Or.inl old
        · rcases List.mem_append.mp old with old | new
          · exact Or.inl old
          · exact Or.inr (List.mem_cons.mpr (Or.inl (List.mem_singleton.mp new)))
      · exact Or.inr (List.mem_cons_of_mem first rest)

theorem addAll_of_nodup {map : OrderedMap Key Value} {entries : List (Key × Value)}
    (nodup : OrderedMap.keys (map ++ entries) |>.Nodup) : map.addAll entries = map ++ entries := by
  induction entries generalizing map with
  | nil => exact (List.append_nil map).symm
  | cons entry entries ih =>
      have missing : entry.1 ∉ map.keys := by
        intro member
        rw [keys, List.map_append, List.map_cons] at nodup
        exact (List.nodup_append.mp nodup).2.2 entry.1 member entry.1 List.mem_cons_self rfl
      rw [addAll, List.foldl_cons, add, if_neg missing]
      have moved : map ++ entry :: entries = (map ++ [(entry.1, entry.2)]) ++ entries := by simp
      rw [moved] at nodup ⊢
      exact ih nodup

theorem addAll_nil_eq_iff {entries : List (Key × Value)} :
    OrderedMap.addAll [] entries = entries ↔ (OrderedMap.keys entries).Nodup := by
  constructor
  · intro same
    have nodup := @nodup_addAll Key Value _ [] List.nodup_nil entries
    rwa [same] at nodup
  · exact fun nodup => @addAll_of_nodup Key Value _ [] entries nodup

end OrderedMap

end PhpDriver.Data
