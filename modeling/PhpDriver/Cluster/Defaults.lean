import PhpDriver.Cluster.Builder
import PhpDriver.Data.Responses
import PhpDriver.Session.Agreement

namespace PhpDriver

open Data

/-! What a session has of the builder: `DefaultCluster::connect`, `connectAsync` and
`FutureSession::get`. Where the driver's session comes from makes no difference. -/

def Seconds.timeout : Seconds → Timeout
  | .long seconds => .long (BitVec.ofInt 64 seconds)
  | .double bits => .double bits.toBitVec

def ClusterBuilder.session (self : ClusterBuilder) : DefaultSession where
  persist := self.persist
  defaultConsistency := self.defaultConsistency
  defaultPageSize := self.defaultPageSize.toBitVec
  defaultTimeout := self.defaultTimeout.map Seconds.timeout

def connectSession (persist : Bool) (self : ClusterDefaults) : DefaultSession :=
  let session : DefaultSession := {}
  let session := { session with
    defaultConsistency := self.defaultConsistency
    defaultPageSize := self.defaultPageSize.toBitVec
    persist }
  if session.defaultTimeout.isSome then
    { session with defaultTimeout := self.defaultTimeout.map Seconds.timeout }
  else session

structure PendingSession where
  persist : Bool
  exception : Option Exception := none
  defaultSession : Option DefaultSession := none

inductive ConnectAnswer where
  | unresolved (exception : Exception)
  | error (exception : Exception)
  | success

def connectAsyncSession (persist : Bool) : PendingSession where
  persist := persist

def PendingSession.get (self : PendingSession) (answer : ConnectAnswer) :
    PendingSession × Except Exception DefaultSession :=
  match self.exception, self.defaultSession with
  | some exception, _ => (self, .error exception)
  | none, some session => (self, .ok session)
  | none, none =>
      let session : DefaultSession := { persist := self.persist }
      match answer with
      | .unresolved exception => (self, .error exception)
      | .error exception =>
          (if self.persist then { self with exception := some exception } else self,
            .error exception)
      | .success => ({ self with defaultSession := some session }, .ok session)

variable {Token Content Row : Type}

/-- Both ways to connect give sessions with the defaults, and what is executed there without
options is executed alike. -/
structure DefaultsSurvive (answer : DriverAnswer Token Content Row) (builder : ClusterBuilder) :
    Prop where
  connected : connectSession builder.persist builder.defaults = builder.session
  gotten : ∀ answers session,
    .ok session ∈ responses PendingSession.get (connectAsyncSession builder.persist) answers →
      session = builder.session
  executed : ∀ answers session preparation statement,
    .ok session ∈ responses PendingSession.get (connectAsyncSession builder.persist) answers →
      execute session preparation answer statement none =
        execute (connectSession builder.persist builder.defaults) preparation answer statement none

/-! What `get` answers. -/

def PendingSession.Plain (persist : Bool) (future : PendingSession) : Prop :=
  future.persist = persist ∧
    ∀ session, future.defaultSession = some session → session = { persist }

theorem PendingSession.Plain.get {persist : Bool} {future : PendingSession}
    (plain : future.Plain persist) (answer : ConnectAnswer) :
    (future.get answer).1.Plain persist ∧
      ∀ session, (future.get answer).2 = .ok session → session = { persist } := by
  obtain ⟨same, made⟩ := plain
  unfold PendingSession.get
  split
  · exact ⟨⟨same, made⟩, by simp⟩
  · rename_i session _ kept
    exact ⟨⟨same, made⟩, fun _ answered => Except.ok.inj answered ▸ made session kept⟩
  · cases answer with
    | unresolved exception => exact ⟨⟨same, made⟩, by simp⟩
    | error exception =>
        refine ⟨?_, by simp⟩
        dsimp only
        split
        · exact ⟨same, made⟩
        · exact ⟨same, made⟩
    | success =>
        subst same
        refine ⟨⟨rfl, ?_⟩, ?_⟩
        · intro session kept
          exact (Option.some.inj kept).symm
        · intro session answered
          exact (Except.ok.inj answered).symm

theorem PendingSession.Plain.responses {persist : Bool} {future : PendingSession}
    (plain : future.Plain persist) (answers : List ConnectAnswer) {session : DefaultSession}
    (answered : .ok session ∈ responses PendingSession.get future answers) :
    session = { persist } := by
  induction answers generalizing future with
  | nil => cases answered
  | cons answer answers ih =>
      obtain ⟨next, made⟩ := plain.get answer
      rcases List.mem_cons.mp answered with first | later
      · exact made session first.symm
      · exact ih next later

theorem gotten_plain {persist : Bool} {answers : List ConnectAnswer} {session : DefaultSession}
    (answered : .ok session ∈ responses PendingSession.get (connectAsyncSession persist) answers) :
    session = { persist } :=
  PendingSession.Plain.responses ⟨rfl, by simp [connectAsyncSession]⟩ answers answered

/-- A page size of one. -/
theorem defaults_lost : ¬DefaultsSurvive noRows { defaultPageSize := 1 } := by
  intro survive
  have same := survive.gotten [.success] _ (List.mem_singleton.mpr rfl)
  exact absurd (congrArg DefaultSession.defaultPageSize same) (by decide)

/-- The defaults survive when they are those of a new session. -/
theorem defaultsSurvive_iff (answer : DriverAnswer Token Content Row) (builder : ClusterBuilder) :
    DefaultsSurvive answer builder ↔
      builder.defaultConsistency = 0x0A ∧ builder.defaultPageSize = 5000 ∧
        builder.defaultTimeout = none := by
  constructor
  · intro survive
    have same := survive.gotten [.success] { persist := builder.persist }
      (List.mem_singleton.mpr rfl)
    have consistency := congrArg DefaultSession.defaultConsistency same
    have pageSize := congrArg DefaultSession.defaultPageSize same
    have timeout := congrArg DefaultSession.defaultTimeout same
    refine ⟨consistency.symm, Int32.toBitVec_inj.mp pageSize.symm, ?_⟩
    exact Option.map_eq_none_iff.mp timeout.symm
  · rintro ⟨consistency, pageSize, timeout⟩
    have plain : builder.session = { persist := builder.persist } := by
      simp only [ClusterBuilder.session, consistency, pageSize, timeout]
      rfl
    have connected : connectSession builder.persist builder.defaults = builder.session := by
      rw [plain]
      simp only [connectSession, ClusterBuilder.defaults, consistency, pageSize]
      rfl
    refine ⟨connected, ?_, ?_⟩
    · intro answers session answered
      rw [gotten_plain answered, plain]
    · intro answers session preparation statement answered
      rw [gotten_plain answered, connected, plain]

end PhpDriver
