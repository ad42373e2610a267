import PhpDriver.Cluster.Builder
import PhpDriver.Data.OrderedMap
import PhpDriver.Data.Run

namespace PhpDriver

open Data

/-! The persistent list and the objects that borrow from it: `ClusterBuilder::build`,
`DefaultCluster::connect` and `connectAsync`, `FutureSession::get`, the destructors of
`php_driver.c`. The counted references to a `CassSession` are left out, they own no
`CassCluster` and no `CassFuture`. -/

/-- A `zend_resource` of the two types with what it points to: a `CassCluster`, or a
`php_driver_psession` with its `CassFuture`. The numbers are addresses that are not given
out again. -/
inductive Resource where
  | cluster (address : Nat)
  | future (address : Nat)
deriving DecidableEq

def Resource.address : Resource → Nat
  | .cluster address | .future address => address

def Resource.isCluster : Resource → Bool
  | .cluster _ => true
  | .future _ => false

inductive Event where
  | use (resource : Resource)
  | useNull
  | free (resource : Resource)
  /-- A failed attempt removes the entry of its key. -/
  | remove (attempt : Nat) (entry : Option Resource)
deriving DecidableEq

structure DefaultCluster where
  cluster : Resource
  persist : Bool
  hashKey : List UInt8

structure FutureSession where
  future : Option Nat
  persist : Bool
  hashKey : List UInt8
  hasException : Bool := false
  hasSession : Bool := false

structure Extension where
  persistentList : OrderedMap (List UInt8) Resource := []
  persistentClusters : UInt32 := 0
  persistentSessions : UInt32 := 0
  clusters : OrderedMap Nat DefaultCluster := []
  futures : OrderedMap Nat FutureSession := []
  next : Nat := 0
  events : List Event := []

namespace Extension

def log (state : Extension) (events : List Event) : Extension :=
  { state with events := state.events ++ events }

/-! `EG(persistent_list)`. -/

/-- `php_driver_cluster_dtor` and `php_driver_session_dtor`. -/
def release (state : Extension) (resource : Resource) : Extension :=
  match resource with
  | .cluster _ =>
      { state.log [.free resource] with persistentClusters := state.persistentClusters - 1 }
  | .future _ =>
      { state.log [.free resource] with persistentSessions := state.persistentSessions - 1 }

def releaseEntry (state : Extension) : Option Resource → Extension
  | none => state
  | some resource => state.release resource

def hashUpdate (state : Extension) (key : List UInt8) (resource : Resource) : Extension :=
  let state := state.releaseEntry (state.persistentList.get key)
  { state with persistentList := state.persistentList.set key resource }

def hashDel (state : Extension) (key : List UInt8) : Extension :=
  let state := state.releaseEntry (state.persistentList.get key)
  { state with persistentList := state.persistentList.erase key }

def register (state : Extension) (key : List UInt8) (resource : Resource) : Extension :=
  let state := state.hashUpdate key resource
  match resource with
  | .cluster _ => { state with persistentClusters := state.persistentClusters + 1 }
  | .future _ => { state with persistentSessions := state.persistentSessions + 1 }

def removeFailed (state : Extension) (attempt : Nat) (key : List UInt8) : Extension :=
  (state.log [.remove attempt (state.persistentList.get key)]).hashDel key

def addCluster (state : Extension) (object : DefaultCluster) : Extension :=
  { state with clusters := state.clusters.set state.next object, next := state.next + 1 }

def addFuture (state : Extension) (object : FutureSession) : Extension :=
  { state with futures := state.futures.set state.next object, next := state.next + 1 }

end Extension

/-! `ClusterBuilder::build`. -/

def isResource : Nat := 9

/-- The entry's `zval` type is compared with the number of the resource type. -/
def cachedCluster (leCluster : Nat) (state : Extension) (hashKey : List UInt8) :
    Option Resource :=
  if isResource = leCluster then state.persistentList.get hashKey else none

/-- Whether all the `ASSERT_SUCCESS` of the settings pass is up to the driver. -/
def build (leCluster : Nat) (state : Extension) (builder : ClusterBuilder) (accepted : Bool) :
    Extension :=
  let object cluster : DefaultCluster :=
    { cluster, persist := builder.persist, hashKey := builder.hashKey }
  match if builder.persist then cachedCluster leCluster state builder.hashKey else none with
  | some cluster => state.addCluster (object cluster)
  | none =>
      let cluster := .cluster state.next
      let state := { state with next := state.next + 1 }
      if accepted then
        let state := if builder.persist then state.register builder.hashKey cluster else state
        state.addCluster (object cluster)
      else if builder.persist then state
      -- the returned object is destroyed
      else state.log [.free cluster]

/-! `DefaultCluster`. -/

/-- Here the type of the resource itself is compared. -/
def cachedSession (state : Extension) (hashKey : List UInt8) : Option Nat :=
  match state.persistentList.get hashKey with
  | some (.future future) => some future
  | _ => none

/-- The future of `connect` and `connectAsync`, from the list or from a new attempt. -/
def attempt (state : Extension) (self : DefaultCluster) (hashKey : List UInt8) :
    Nat × Extension :=
  match if self.persist then cachedSession state hashKey else none with
  | some future => (future, state)
  | none =>
      let future := state.next
      let state := { state with next := state.next + 1 }.log [.use self.cluster]
      (future, if self.persist then state.register hashKey (.future future) else state)

/-- How `php_driver_future_wait_timed` and the future's error code come out. -/
inductive Outcome where
  | unresolved
  | error
  | success
deriving DecidableEq

def connect (state : Extension) (self : DefaultCluster) (keyspace : Option (List UInt8))
    (outcome : Outcome) : Extension :=
  let hashKey := sessionKey self.hashKey keyspace
  let (future, state) := attempt state self hashKey
  let state := state.log [.use (.future future)]
  match outcome with
  | .unresolved => if self.persist then state else state.log [.free (.future future)]
  | .error =>
      let state := state.log [.use (.future future)]
      if self.persist then state.removeFailed future hashKey
      else state.log [.free (.future future)]
  | .success => state.log [.use (.future future)]

def connectAsync (state : Extension) (self : DefaultCluster) (keyspace : Option (List UInt8)) :
    Extension :=
  let hashKey := sessionKey self.hashKey keyspace
  let (future, state) := attempt state self hashKey
  state.addFuture { future := some future, persist := self.persist, hashKey }

/-! `FutureSession`. -/

def FutureSession.isPending (self : FutureSession) : Bool :=
  !self.hasException && !self.hasSession

def getSession (state : Extension) (object : Nat) (self : FutureSession) (outcome : Outcome) :
    Extension :=
  if self.isPending then
    match self.future with
    | none => state.log [.useNull]
    | some future =>
        let state := state.log [.use (.future future)]
        match outcome with
        | .unresolved => state
        | .error =>
            let state := state.log [.use (.future future)]
            if self.persist then
              let removed := (state.persistentList.get self.hashKey).isSome
              let state := state.removeFailed future self.hashKey
              let self := { self with
                hasException := true
                future := if removed then none else self.future }
              { state with futures := state.futures.set object self }
            else state
        | .success =>
            let state := state.log [.use (.future future)]
            { state with futures := state.futures.set object { self with hasSession := true } }
  else state

def destroyCluster (state : Extension) (object : Nat) (self : DefaultCluster) : Extension :=
  let state := if self.persist then state else state.log [.free self.cluster]
  { state with clusters := state.clusters.erase object }

/-- The class has no `free_obj` handler, so that the object's future stays. -/
def destroyFuture (state : Extension) (object : Nat) : Extension :=
  { state with futures := state.futures.erase object }

inductive ClusterCall where
  | build (builder : ClusterBuilder) (accepted : Bool)
  | connect (object : Nat) (keyspace : Option (List UInt8)) (outcome : Outcome)
  | connectAsync (object : Nat) (keyspace : Option (List UInt8))
  | get (object : Nat) (outcome : Outcome)
  | destroyCluster (object : Nat)
  | destroyFuture (object : Nat)

/-- A call on an object that exists; `leCluster` is the number the resource type of clusters
is registered under. -/
def clusterCall (leCluster : Nat) (state : Extension) : ClusterCall → Option Extension
  | .build builder accepted => some (build leCluster state builder accepted)
  | .connect object keyspace outcome =>
      (state.clusters.get object).map fun self => connect state self keyspace outcome
  | .connectAsync object keyspace =>
      (state.clusters.get object).map fun self => connectAsync state self keyspace
  | .get object outcome =>
      (state.futures.get object).map fun self => getSession state object self outcome
  | .destroyCluster object =>
      (state.clusters.get object).map fun self => destroyCluster state object self
  | .destroyFuture object =>
      (state.futures.get object).map fun _ => destroyFuture state object

end PhpDriver
