import PhpDriver.Cluster.Persistent

namespace PhpDriver

open Data

/-! What an entry of the persistent list points to outlives whoever borrows it, as long as
no entry is replaced or removed that is still borrowed. -/

/-- No resource is used after it was freed or freed twice, and a failed attempt removes no
entry but its own. -/
structure Released (events : List Event) : Prop where
  after : events.Pairwise fun earlier later => ∀ resource, earlier = .free resource →
    later ≠ .use resource ∧ later ≠ .free resource
  notNull : .useNull ∉ events
  own : ∀ attempt entry, .remove attempt (some entry) ∈ events → entry = .future attempt

variable {events : List Event} {resource : Resource}

theorem Released.nil : Released [] :=
  ⟨.nil, by simp, by simp⟩

theorem Released.append (released : Released events) {event : Event}
    (untouched : ∀ resource, .free resource ∈ events →
      event ≠ .use resource ∧ event ≠ .free resource)
    (notNull : event ≠ .useNull)
    (own : ∀ attempt entry, event = .remove attempt (some entry) → entry = .future attempt) :
    Released (events ++ [event]) := by
  refine ⟨?_, ?_, ?_⟩
  · rw [List.pairwise_append]
    refine ⟨released.after, List.pairwise_singleton _ _, ?_⟩
    intro earlier member later new resource freed
    rw [List.mem_singleton.mp new]
    subst freed
    exact untouched resource member
  · simp [released.notNull, Ne.symm notNull]
  · intro attempt entry member
    rcases List.mem_append.mp member with old | new
    · exact released.own attempt entry old
    · exact own attempt entry (List.mem_singleton.mp new).symm

theorem Released.use (released : Released events) (live : .free resource ∉ events) :
    Released (events ++ [.use resource]) := by
  apply released.append
  · intro other freed
    refine ⟨?_, by simp⟩
    rintro same
    obtain rfl := Event.use.inj same
    exact live freed
  · simp
  · simp

theorem Released.free (released : Released events) (live : .free resource ∉ events) :
    Released (events ++ [.free resource]) := by
  apply released.append
  · intro other freed
    refine ⟨by simp, ?_⟩
    rintro same
    obtain rfl := Event.free.inj same
    exact live freed
  · simp
  · simp

theorem Released.remove (released : Released events) {attempt : Nat} {entry : Option Resource}
    (own : entry = none ∨ entry = some (.future attempt)) :
    Released (events ++ [.remove attempt entry]) := by
  apply released.append
  · intro other _
    simp
  · simp
  · intro other found same
    obtain ⟨rfl, rfl⟩ := Event.remove.inj same
    rcases own with none_ | own
    · cases none_
    · exact Option.some.inj own

structure Counted (state : Extension) : Prop where
  clusters : state.persistentClusters =
    UInt32.ofNat (state.persistentList.values.countP (·.isCluster))
  sessions : state.persistentSessions =
    UInt32.ofNat (state.persistentList.values.countP (!·.isCluster))

structure ResourcesSafe (state : Extension) : Prop where
  released : Released state.events
  counted : Counted state

/-- The entries are live and no two of them share what they point to. -/
structure Listed (state : Extension) : Prop where
  nodup : state.persistentList.keys.Nodup
  apart : ∀ {key other resource}, state.persistentList.get key = some resource →
    state.persistentList.get other = some resource → key = other
  live : ∀ {key resource}, state.persistentList.get key = some resource →
    .free resource ∉ state.events
  fresh : ∀ {key resource}, state.persistentList.get key = some resource →
    resource.address < state.next
  freed : ∀ {resource}, .free resource ∈ state.events → resource.address < state.next

structure Borrowing (state : Extension) : Prop where
  clusters : ∀ {object self}, state.clusters.get object = some self →
    self.persist = true ∧ state.persistentList.get self.hashKey = some self.cluster
  futures : ∀ {object self}, state.futures.get object = some self →
    self.persist = true ∧ (self.isPending = true → ∃ future, self.future = some future ∧
      state.persistentList.get self.hashKey = some (.future future))

structure Holds (state : Extension) : Prop where
  safe : ResourcesSafe state
  listed : Listed state
  borrowing : Borrowing state

structure Unborrowed (state : Extension) (key : List UInt8) : Prop where
  clusters : ∀ {object self}, state.clusters.get object = some self → self.hashKey ≠ key
  futures : ∀ {object self}, state.futures.get object = some self → self.isPending = true →
    self.hashKey ≠ key

theorem Holds.start : Holds {} :=
  ⟨⟨.nil, rfl, rfl⟩, ⟨List.nodup_nil, by simp [OrderedMap.get], by simp [OrderedMap.get],
    by simp [OrderedMap.get], by simp⟩, ⟨by simp [OrderedMap.get], by simp [OrderedMap.get]⟩⟩

variable {state : Extension} {key : List UInt8}

theorem Holds.use (holds : Holds state) (found : state.persistentList.get key = some resource) :
    Holds (state.log [.use resource]) := by
  obtain ⟨⟨released, counted⟩, ⟨nodup, apart, live, fresh, freed⟩, borrowing⟩ := holds
  refine ⟨⟨released.use (live found), counted.1, counted.2⟩, ⟨nodup, apart, ?_, fresh, ?_⟩,
    borrowing.1, borrowing.2⟩
  · intro key resource found
    simpa [Extension.log] using live found
  · intro resource member
    exact freed (by simpa [Extension.log] using member)

theorem Holds.logRemove (holds : Holds state) {attempt : Nat}
    (own : state.persistentList.get key = none ∨
      state.persistentList.get key = some (.future attempt)) :
    Holds (state.log [.remove attempt (state.persistentList.get key)]) := by
  obtain ⟨⟨released, counted⟩, ⟨nodup, apart, live, fresh, freed⟩, borrowing⟩ := holds
  refine ⟨⟨released.remove own, counted.1, counted.2⟩, ⟨nodup, apart, ?_, fresh, ?_⟩,
    borrowing.1, borrowing.2⟩
  · intro key resource found
    simpa [Extension.log] using live found
  · intro resource member
    exact freed (by simpa [Extension.log] using member)

/-- The entry of a key has been released, and there is another one or none. -/
structure Displaced (state later : Extension) (key : List UInt8) (entry : Option Resource) :
    Prop where
  persistentList : later.persistentList = match entry with
    | some resource => state.persistentList.set key resource
    | none => state.persistentList.erase key
  persistentClusters : later.persistentClusters = state.persistentClusters -
      UInt32.ofNat ((state.persistentList.get key).toList.countP (·.isCluster)) +
      UInt32.ofNat (entry.toList.countP (·.isCluster))
  persistentSessions : later.persistentSessions = state.persistentSessions -
      UInt32.ofNat ((state.persistentList.get key).toList.countP (!·.isCluster)) +
      UInt32.ofNat (entry.toList.countP (!·.isCluster))
  clusters : later.clusters = state.clusters
  futures : later.futures = state.futures
  next : later.next = state.next
  events : later.events = state.events ++ (state.persistentList.get key).toList.map .free

theorem displaced_register (state : Extension) (key : List UInt8) (resource : Resource) :
    Displaced state (state.register key resource) key (some resource) := by
  unfold Extension.register Extension.hashUpdate
  cases found : state.persistentList.get key with
  | none =>
      cases resource <;> constructor <;>
        simp [Extension.releaseEntry, Resource.isCluster, found]
  | some old =>
      cases old <;> cases resource <;> constructor <;>
        simp [Extension.releaseEntry, Extension.release, Extension.log, Resource.isCluster, found]

theorem displaced_hashDel (state : Extension) (key : List UInt8) :
    Displaced state (state.hashDel key) key none := by
  unfold Extension.hashDel
  cases found : state.persistentList.get key with
  | none => constructor <;> simp [Extension.releaseEntry, found]
  | some old =>
      cases old <;> constructor <;>
        simp [Extension.releaseEntry, Extension.release, Extension.log, Resource.isCluster, found]

theorem ofNat_step {before gone after new : Nat} (same : after + gone = before + new) :
    UInt32.ofNat before - UInt32.ofNat gone + UInt32.ofNat new = UInt32.ofNat after := by
  have sum := congrArg UInt32.ofNat same
  rw [UInt32.ofNat_add, UInt32.ofNat_add] at sum
  grind

variable {later : Extension} {entry : Option Resource}

theorem Displaced.get (displaced : Displaced state later key entry) (other : List UInt8) :
    later.persistentList.get other =
      if other = key then entry else state.persistentList.get other := by
  rw [displaced.persistentList]
  cases entry with
  | none => exact OrderedMap.get_erase _ _ _
  | some resource => exact OrderedMap.get_set _ _ _ _

theorem Displaced.countP (displaced : Displaced state later key entry)
    (nodup : state.persistentList.keys.Nodup) (holds : Resource → Bool) :
    later.persistentList.values.countP holds +
        (state.persistentList.get key).toList.countP holds =
      state.persistentList.values.countP holds + entry.toList.countP holds := by
  rw [displaced.persistentList]
  cases entry with
  | none => exact OrderedMap.countP_erase _ _ nodup holds
  | some resource => exact OrderedMap.countP_set _ _ _ nodup holds

theorem Displaced.counted (displaced : Displaced state later key entry)
    (nodup : state.persistentList.keys.Nodup) (counted : Counted state) : Counted later := by
  constructor
  · rw [displaced.persistentClusters, counted.clusters]
    exact ofNat_step (displaced.countP nodup _)
  · rw [displaced.persistentSessions, counted.sessions]
    exact ofNat_step (displaced.countP nodup _)

theorem Displaced.mem_events (displaced : Displaced state later key entry) :
    .free resource ∈ later.events ↔
      .free resource ∈ state.events ∨ state.persistentList.get key = some resource := by
  rw [displaced.events, List.mem_append]
  cases state.persistentList.get key <;> simp [eq_comm]

theorem Displaced.holds (displaced : Displaced state later key entry) (holds : Holds state)
    (unborrowed : Unborrowed state key)
    (fresh : ∀ resource ∈ entry, resource.address < state.next ∧
      .free resource ∉ state.events ∧
        ∀ other, state.persistentList.get other ≠ some resource) : Holds later := by
  obtain ⟨⟨released, counted⟩, listed, borrowing⟩ := holds
  refine ⟨⟨?_, displaced.counted listed.nodup counted⟩, ⟨?_, ?_, ?_, ?_, ?_⟩, ⟨?_, ?_⟩⟩
  · rw [displaced.events]
    cases found : state.persistentList.get key with
    | none => simpa using released
    | some old => exact released.free (listed.live found)
  · rw [displaced.persistentList]
    cases entry with
    | none => exact OrderedMap.nodup_erase _ _ listed.nodup
    | some resource => exact OrderedMap.nodup_set _ _ _ listed.nodup
  · intro first second resource foundFirst foundSecond
    rw [displaced.get] at foundFirst foundSecond
    split at foundFirst <;> split at foundSecond
    · simp_all
    · exact absurd foundSecond ((fresh resource foundFirst).2.2 second)
    · exact absurd foundFirst ((fresh resource foundSecond).2.2 first)
    · exact listed.apart foundFirst foundSecond
  · intro other resource found freed
    rw [displaced.get] at found
    rw [displaced.mem_events] at freed
    split at found
    · obtain ⟨_, live, absent⟩ := fresh resource found
      exact freed.elim live (absent key)
    · rename_i differs
      rcases freed with freed | old
      · exact listed.live found freed
      · exact differs (listed.apart found old)
  · intro other resource found
    rw [displaced.get] at found
    rw [displaced.next]
    split at found
    · exact (fresh resource found).1
    · exact listed.fresh found
  · intro resource freed
    rw [displaced.next]
    rcases displaced.mem_events.mp freed with freed | old
    · exact listed.freed freed
    · exact listed.fresh old
  · intro object self member
    rw [displaced.clusters] at member
    rw [displaced.get, if_neg (unborrowed.clusters member)]
    exact borrowing.clusters member
  · intro object self member
    rw [displaced.futures] at member
    refine ⟨(borrowing.futures member).1, ?_⟩
    intro pending
    rw [displaced.get, if_neg (unborrowed.futures member pending)]
    exact (borrowing.futures member).2 pending

theorem Holds.removeFailed (holds : Holds state) (unborrowed : Unborrowed state key)
    {attempt : Nat} (own : state.persistentList.get key = none ∨
      state.persistentList.get key = some (.future attempt)) :
    Holds (state.removeFailed attempt key) :=
  (displaced_hashDel _ key).holds (holds.logRemove own)
    ⟨unborrowed.clusters, unborrowed.futures⟩ (by simp)

theorem removeFailed_futures (state : Extension) (futures : OrderedMap Nat FutureSession)
    (attempt : Nat) (key : List UInt8) :
    { state with futures }.removeFailed attempt key =
      { state.removeFailed attempt key with futures } := by
  unfold Extension.removeFailed Extension.hashDel
  simp only [Extension.log]
  cases state.persistentList.get key with
  | none => rfl
  | some resource => cases resource <;> rfl

theorem Holds.skip (holds : Holds state) : Holds { state with next := state.next + 1 } := by
  obtain ⟨safe, ⟨nodup, apart, live, fresh, freed⟩, borrowing⟩ := holds
  refine ⟨⟨safe.released, safe.counted.1, safe.counted.2⟩, ⟨nodup, apart, live, ?_, ?_⟩,
    borrowing.1, borrowing.2⟩
  · intro key resource found
    exact Nat.lt_succ_of_lt (fresh found)
  · intro resource member
    exact Nat.lt_succ_of_lt (freed member)

/-- A resource at an address that has just been taken goes into the list. -/
theorem Holds.register (holds : Holds state) (unborrowed : Unborrowed state key)
    (taken : resource.address = state.next) :
    Holds ({ state with next := state.next + 1 }.register key resource) := by
  apply (displaced_register _ key resource).holds holds.skip
    ⟨unborrowed.clusters, unborrowed.futures⟩
  intro other same
  obtain rfl := Option.some.inj (Option.mem_def.mp same)
  refine ⟨by simp [taken], ?_, ?_⟩
  · intro freed
    exact absurd (holds.listed.freed freed) (by omega)
  · intro other found
    exact absurd (holds.listed.fresh found) (by omega)

theorem get_register (state : Extension) (key : List UInt8) (resource : Resource) :
    (state.register key resource).persistentList.get key = some resource := by
  rw [(displaced_register state key resource).get, if_pos rfl]

theorem Holds.addCluster (holds : Holds state) {self : DefaultCluster}
    (persist : self.persist = true)
    (found : state.persistentList.get self.hashKey = some self.cluster) :
    Holds (state.addCluster self) := by
  obtain ⟨safe, listed, borrowing⟩ := holds.skip
  refine ⟨⟨safe.released, safe.counted.1, safe.counted.2⟩,
    ⟨listed.nodup, listed.apart, listed.live, listed.fresh, listed.freed⟩, ?_, borrowing.2⟩
  intro object other member
  rw [Extension.addCluster, OrderedMap.get_set] at member
  split at member
  · obtain rfl := Option.some.inj member
    exact ⟨persist, found⟩
  · exact borrowing.clusters member

theorem Holds.setFuture (holds : Holds state) (object : Nat) {self : FutureSession}
    (persist : self.persist = true)
    (found : self.isPending = true → ∃ future, self.future = some future ∧
      state.persistentList.get self.hashKey = some (.future future)) :
    Holds { state with futures := state.futures.set object self } := by
  obtain ⟨safe, listed, borrowing⟩ := holds
  refine ⟨⟨safe.released, safe.counted.1, safe.counted.2⟩,
    ⟨listed.nodup, listed.apart, listed.live, listed.fresh, listed.freed⟩, borrowing.1, ?_⟩
  intro other another member
  rw [OrderedMap.get_set] at member
  split at member
  · obtain rfl := Option.some.inj member
    exact ⟨persist, found⟩
  · exact borrowing.futures member

inductive Borrower where
  | cluster (object : Nat)
  | future (object : Nat)

/-- Objects that may still use a resource; a `FutureSession` that has its session or its
exception does not. -/
def Extension.Borrows (state : Extension) (resource : Resource) : Borrower → Prop
  | .cluster object =>
      ∃ self, state.clusters.get object = some self ∧ self.cluster = resource
  | .future object =>
      ∃ self, state.futures.get object = some self ∧ self.isPending = true ∧
        self.future.map Resource.future = some resource

def displacedKey (leCluster : Nat) (state : Extension) : ClusterCall → Option (List UInt8)
  | .build builder accepted =>
      if accepted ∧ cachedCluster leCluster state builder.hashKey = none then
        some builder.hashKey
      else none
  | .connect object keyspace outcome =>
      (state.clusters.get object).bind fun self =>
        let key := sessionKey self.hashKey keyspace
        if cachedSession state key = none ∨ outcome = .error then some key else none
  | .connectAsync object keyspace =>
      (state.clusters.get object).bind fun self =>
        let key := sessionKey self.hashKey keyspace
        if cachedSession state key = none then some key else none
  | .get object outcome =>
      (state.futures.get object).bind fun self =>
        if self.isPending ∧ outcome = .error then some self.hashKey else none
  | .destroyCluster _ | .destroyFuture _ => none

/-- The object that learns from the call itself that its attempt has failed. -/
def ClusterCall.informs : ClusterCall → Option Borrower
  | .get object _ => some (.future object)
  | .build _ _ | .connect _ _ _ | .connectAsync _ _ | .destroyCluster _ | .destroyFuture _ =>
      none

structure Undisturbed (leCluster : Nat) (state : Extension) (call : ClusterCall) : Prop where
  persistent : ∀ builder accepted, call = .build builder accepted → builder.persist = true
  unborrowed : ∀ key resource, displacedKey leCluster state call = some key →
    state.persistentList.get key = some resource →
    ∀ borrower, state.Borrows resource borrower → call.informs = some borrower

theorem Holds.unborrowed (holds : Holds state)
    (free : ∀ resource, state.persistentList.get key = some resource →
      ∀ borrower, ¬state.Borrows resource borrower) : Unborrowed state key := by
  constructor
  · rintro object self member rfl
    exact free _ (holds.borrowing.clusters member).2 (.cluster object) ⟨self, member, rfl⟩
  · rintro object self member pending rfl
    obtain ⟨future, same, found⟩ := (holds.borrowing.futures member).2 pending
    exact free _ found (.future object) ⟨self, member, pending, by rw [same]; rfl⟩

theorem Undisturbed.unborrowed_key {leCluster : Nat} {call : ClusterCall}
    (undisturbed : Undisturbed leCluster state call) (holds : Holds state)
    (displaced : displacedKey leCluster state call = some key)
    (uninformed : call.informs = none) : Unborrowed state key := by
  apply holds.unborrowed
  intro resource found borrower borrows
  have informed := undisturbed.unborrowed key resource displaced found borrower borrows
  rw [uninformed] at informed
  cases informed

variable {leCluster : Nat}

theorem cachedCluster_eq_some {cluster : Resource}
    (cached : cachedCluster leCluster state key = some cluster) :
    state.persistentList.get key = some cluster := by
  rw [cachedCluster] at cached
  split at cached
  · exact cached
  · cases cached

theorem cachedSession_eq_some {future : Nat} (cached : cachedSession state key = some future) :
    state.persistentList.get key = some (.future future) := by
  rw [cachedSession] at cached
  split at cached
  · rename_i found
    rw [found, Option.some.inj cached]
  · cases cached

theorem Holds.build (holds : Holds state) {builder : ClusterBuilder} {accepted : Bool}
    (undisturbed : Undisturbed leCluster state (.build builder accepted)) :
    Holds (build leCluster state builder accepted) := by
  have persist := undisturbed.persistent builder accepted rfl
  simp only [PhpDriver.build, persist, if_true]
  cases cached : cachedCluster leCluster state builder.hashKey with
  | some cluster => exact holds.addCluster rfl (cachedCluster_eq_some cached)
  | none =>
      cases accepted with
      | false => exact holds.skip
      | true =>
          have unborrowed : Unborrowed state builder.hashKey :=
            undisturbed.unborrowed_key holds (by simp [displacedKey, cached]) rfl
          exact (holds.register unborrowed rfl).addCluster rfl (get_register _ _ _)

/-- What an attempt leaves: its entry is in the list, the objects are as before. -/
structure Attempted (state : Extension) (key : List UInt8) (attempted : Nat × Extension) :
    Prop where
  holds : Holds attempted.2
  found : attempted.2.persistentList.get key = some (.future attempted.1)
  clusters : attempted.2.clusters = state.clusters
  futures : attempted.2.futures = state.futures

theorem Holds.attempt (holds : Holds state) {object : Nat} {self : DefaultCluster}
    (member : state.clusters.get object = some self) (key : List UInt8)
    (unborrowed : cachedSession state key = none → Unborrowed state key) :
    Attempted state key (attempt state self key) := by
  obtain ⟨persist, own⟩ := holds.borrowing.clusters member
  simp only [PhpDriver.attempt, persist, if_true]
  cases cached : cachedSession state key with
  | some future => exact ⟨holds, cachedSession_eq_some cached, rfl, rfl⟩
  | none =>
      have used := holds.use own
      have free := unborrowed cached
      let before := { state with next := state.next + 1 }.log [.use self.cluster]
      have registered : Holds (before.register key (.future state.next)) :=
        used.register ⟨free.clusters, free.futures⟩ rfl
      have displaced := displaced_register before key (.future state.next)
      exact ⟨registered, get_register _ _ _, displaced.clusters, displaced.futures⟩

theorem Holds.connect (holds : Holds state) {object : Nat} {self : DefaultCluster}
    {keyspace : Option (List UInt8)} {outcome : Outcome}
    (member : state.clusters.get object = some self)
    (undisturbed : Undisturbed leCluster state (.connect object keyspace outcome)) :
    Holds (connect state self keyspace outcome) := by
  obtain ⟨persist, _⟩ := holds.borrowing.clusters member
  obtain ⟨used, found, clusters, futures⟩ := holds.attempt member (sessionKey self.hashKey keyspace) fun cached =>
    undisturbed.unborrowed_key holds (by simp [displacedKey, member, cached]) rfl
  have waited := used.use found
  cases outcome with
  | unresolved => simpa [PhpDriver.connect, persist] using waited
  | success => simpa [PhpDriver.connect, persist] using waited.use found
  | error =>
      have free : Unborrowed state (sessionKey self.hashKey keyspace) :=
        undisturbed.unborrowed_key holds (by simp [displacedKey, member]) rfl
      have failed := waited.use found
      simp only [PhpDriver.connect, persist, if_true]
      apply failed.removeFailed
      · exact ⟨fun member => free.clusters (clusters ▸ member),
          fun member => free.futures (futures ▸ member)⟩
      · exact Or.inr found

theorem Holds.connectAsync (holds : Holds state) {object : Nat} {self : DefaultCluster}
    {keyspace : Option (List UInt8)} (member : state.clusters.get object = some self)
    (undisturbed : Undisturbed leCluster state (.connectAsync object keyspace)) :
    Holds (connectAsync state self keyspace) := by
  obtain ⟨persist, _⟩ := holds.borrowing.clusters member
  obtain ⟨used, found, _, _⟩ := holds.attempt member (sessionKey self.hashKey keyspace) fun cached =>
    undisturbed.unborrowed_key holds (by simp [displacedKey, member, cached]) rfl
  exact used.skip.setFuture _ persist fun _ => ⟨_, rfl, found⟩

/-- Apart from the object that is told, nobody borrows the entry of a failed attempt. -/
theorem Holds.unborrowed_failed (holds : Holds state) {object : Nat} {self failed : FutureSession}
    (member : state.futures.get object = some self) (pending : self.isPending = true)
    (told : failed.isPending = false)
    (undisturbed : Undisturbed leCluster state (.get object .error)) :
    Unborrowed { state with futures := state.futures.set object failed } self.hashKey := by
  have displaced : displacedKey leCluster state (.get object .error) = some self.hashKey := by
    simp [displacedKey, member, pending]
  constructor
  · intro other cluster found same
    have borrows := (holds.borrowing.clusters found).2
    rw [same] at borrows
    cases undisturbed.unborrowed _ _ displaced borrows (.cluster other) ⟨cluster, found, rfl⟩
  · intro other session found waits same
    rw [OrderedMap.get_set] at found
    split at found
    · obtain rfl := Option.some.inj found
      rw [told] at waits
      cases waits
    · rename_i differs
      obtain ⟨future, mine, borrows⟩ := (holds.borrowing.futures found).2 waits
      rw [same] at borrows
      have informed := undisturbed.unborrowed _ _ displaced borrows (.future other)
        ⟨session, found, waits, by rw [mine]; rfl⟩
      exact differs (Borrower.future.inj (Option.some.inj informed)).symm

theorem Holds.getSession (holds : Holds state) {object : Nat} {self : FutureSession}
    {outcome : Outcome} (member : state.futures.get object = some self)
    (undisturbed : Undisturbed leCluster state (.get object outcome)) :
    Holds (getSession state object self outcome) := by
  obtain ⟨persist, borrowing⟩ := holds.borrowing.futures member
  cases pending : self.isPending with
  | false => simpa [PhpDriver.getSession, pending] using holds
  | true =>
      obtain ⟨future, own, found⟩ := borrowing pending
      have waited := holds.use found
      simp only [PhpDriver.getSession, pending, own, if_true]
      cases outcome with
      | unresolved => exact waited
      | success =>
          exact (waited.use found).setFuture object persist (by simp [FutureSession.isPending])
      | error =>
          let failed : FutureSession := { self with hasException := true, future := none }
          have told : failed.isPending = false := rfl
          let before := (state.log [.use (.future future)]).log [.use (.future future)]
          have free : Unborrowed { state with futures := state.futures.set object failed }
              self.hashKey := holds.unborrowed_failed member pending told undisturbed
          have used : Holds { before with futures := state.futures.set object failed } :=
            (waited.use found).setFuture object persist (by simp [told])
          have removed := used.removeFailed ⟨free.clusters, free.futures⟩ (Or.inr found)
          have present : (before.persistentList.get self.hashKey).isSome = true :=
            Option.isSome_of_eq_some found
          rw [removeFailed_futures] at removed
          have kept : (before.removeFailed future self.hashKey).futures = state.futures :=
            (displaced_hashDel _ self.hashKey).futures
          rw [if_pos persist, if_pos present, kept]
          exact removed

theorem Holds.destroyCluster (holds : Holds state) {object : Nat} {self : DefaultCluster}
    (member : state.clusters.get object = some self) :
    Holds (destroyCluster state object self) := by
  obtain ⟨persist, _⟩ := holds.borrowing.clusters member
  simp only [PhpDriver.destroyCluster, persist, if_true]
  refine ⟨⟨holds.safe.1, holds.safe.2.1, holds.safe.2.2⟩, ⟨holds.listed.nodup,
    holds.listed.apart, holds.listed.live, holds.listed.fresh, holds.listed.freed⟩, ?_,
    holds.borrowing.2⟩
  intro other cluster found
  rw [OrderedMap.get_erase] at found
  split at found
  · cases found
  · exact holds.borrowing.clusters found

theorem Holds.destroyFuture (holds : Holds state) (object : Nat) :
    Holds (destroyFuture state object) := by
  refine ⟨⟨holds.safe.1, holds.safe.2.1, holds.safe.2.2⟩, ⟨holds.listed.nodup,
    holds.listed.apart, holds.listed.live, holds.listed.fresh, holds.listed.freed⟩,
    holds.borrowing.1, ?_⟩
  intro other session found
  rw [PhpDriver.destroyFuture, OrderedMap.get_erase] at found
  split at found
  · cases found
  · exact holds.borrowing.futures found

theorem Holds.clusterCall (holds : Holds state) {call : ClusterCall}
    (undisturbed : Undisturbed leCluster state call)
    (called : clusterCall leCluster state call = some later) : Holds later := by
  cases call with
  | build builder accepted =>
      obtain rfl := Option.some.inj called
      exact holds.build undisturbed
  | connect object keyspace outcome =>
      obtain ⟨self, member, rfl⟩ := Option.map_eq_some_iff.mp called
      exact holds.connect member undisturbed
  | connectAsync object keyspace =>
      obtain ⟨self, member, rfl⟩ := Option.map_eq_some_iff.mp called
      exact holds.connectAsync member undisturbed
  | get object outcome =>
      obtain ⟨self, member, rfl⟩ := Option.map_eq_some_iff.mp called
      exact holds.getSession member undisturbed
  | destroyCluster object =>
      obtain ⟨self, member, rfl⟩ := Option.map_eq_some_iff.mp called
      exact holds.destroyCluster member
  | destroyFuture object =>
      obtain ⟨self, member, rfl⟩ := Option.map_eq_some_iff.mp called
      exact holds.destroyFuture object

theorem persistent_resources_are_safe {leCluster : Nat} {calls : List ClusterCall}
    {state : Extension} (run : Run (clusterCall leCluster) (Undisturbed leCluster) {} calls state) :
    ResourcesSafe state := by
  have holds : Holds state :=
    run.invariant (fun _ _ _ holds undisturbed called => holds.clusterCall undisturbed called)
      .start
  exact holds.safe

/-- A cluster is built, connected to and let go. -/
theorem one_session_is_safe :
    ∃ state, Run (clusterCall 12) (Undisturbed 12) {}
        [.build {} true, .connectAsync 1 none, .get 3 .success, .destroyFuture 3,
          .destroyCluster 1] state ∧ ResourcesSafe state := by
  have run : ∃ state, Run (clusterCall 12) (Undisturbed 12) {}
      [.build {} true, .connectAsync 1 none, .get 3 .success, .destroyFuture 3,
        .destroyCluster 1] state := by
    refine ⟨_, .cons ⟨?_, ?_⟩ rfl (.cons ⟨?_, ?_⟩ rfl (.cons ⟨?_, ?_⟩ rfl
      (.cons ⟨?_, ?_⟩ rfl (.cons ⟨?_, ?_⟩ rfl (.nil _)))))⟩
    · rintro _ _ same
      cases same
      rfl
    · intro key resource _ found
      cases found
    · simp
    · intro key resource displaced found
      obtain rfl : sessionKey ({} : ClusterBuilder).hashKey none = key := Option.some.inj displaced
      have absent : (build 12 {} {} true).persistentList.get
          (sessionKey ({} : ClusterBuilder).hashKey none) = none := by decide +kernel
      rw [absent] at found
      cases found
    · simp
    · intro key resource displaced
      cases displaced
    · simp
    · intro key resource displaced
      cases displaced
    · simp
    · intro key resource displaced
      cases displaced
  obtain ⟨state, run⟩ := run
  exact ⟨state, run, persistent_resources_are_safe run⟩

theorem ResourcesSafe.not_of_events {state : Extension} {before between after : List Event}
    {resource : Resource}
    (events : state.events = before ++ .free resource :: (between ++ .use resource :: after)) :
    ¬ResourcesSafe state := by
  intro safe
  have pairs := safe.released.after
  rw [events, List.pairwise_append, List.pairwise_cons] at pairs
  exact (pairs.2.1.1 (.use resource) (by simp) resource rfl).1 rfl

/-- Two builds with one key, and the first object connects; two futures share an attempt that
fails. -/
theorem build_twice_then_connect :
    (∃ state, [.build {} true, .build {} true, .connect 1 none .success].foldlM
        (clusterCall 12) {} = some state ∧ ¬ResourcesSafe state) ∧
      ∃ state, [.build {} true, .connectAsync 1 none, .connectAsync 1 none, .get 3 .error,
        .get 4 .success].foldlM (clusterCall 12) {} = some state ∧ ¬ResourcesSafe state := by
  constructor
  · have events : ([.build {} true, .build {} true, .connect 1 none .success].foldlM
        (clusterCall 12) {}).map Extension.events =
      some ([] ++ .free (.cluster 0) :: ([] ++ .use (.cluster 0) ::
        [.use (.future 4), .use (.future 4)])) := by decide +kernel
    obtain ⟨state, ran, events⟩ := Option.map_eq_some_iff.mp events
    exact ⟨state, ran, ResourcesSafe.not_of_events events⟩
  · have events : ([.build {} true, .connectAsync 1 none, .connectAsync 1 none, .get 3 .error,
        .get 4 .success].foldlM (clusterCall 12) {}).map Extension.events =
      some ([.use (.cluster 0), .use (.future 2), .use (.future 2),
        .remove 2 (some (.future 2))] ++ .free (.future 2) :: ([] ++ .use (.future 2) ::
          [.use (.future 2)])) := by decide +kernel
    obtain ⟨state, ran, events⟩ := Option.map_eq_some_iff.mp events
    exact ⟨state, ran, ResourcesSafe.not_of_events events⟩

end PhpDriver
