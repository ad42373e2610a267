import PhpDriver.Session.Agreement
import PhpDriver.Session.OptionsRead

namespace PhpDriver

open Data

/-! When the options of an execution are honoured. -/

structure Stored (given : GivenOptions) (built : ExecutionOptions) : Prop where
  consistency : built.consistency = given.consistency.getD (-1)
  serialConsistency : built.serialConsistency = given.serialConsistency.getD (-1)
  pageSize : built.pageSize.toInt = (given.pageSize.map BitVec.toInt).getD (-1)
  pagingStateToken : built.pagingStateToken = given.pagingStateToken
  timeout : built.timeout = given.timeout
  arguments : built.arguments = given.arguments
  retryPolicy : built.retryPolicy = given.retryPolicy.map .retryPolicy
  timestamp : built.timestamp = given.timestamp.getD unsetTimestamp

namespace Request

def consistency : Request → Option Int
  | .statement request => some request.consistency
  | .batch request => some request.consistency
  | _ => none

def serialConsistency : Request → Option Int
  | .statement request => request.serialConsistency
  | _ => none

def retryPolicy : Request → Option Nat
  | .statement request => request.retryPolicy
  | .batch request => request.retryPolicy
  | _ => none

def timestamp : Request → Option Int
  | .statement request => some request.timestamp
  | .batch request => some request.timestamp
  | _ => none

end Request

structure Applied (given : GivenOptions) (request : Request) : Prop where
  consistency : ∀ level, given.consistency = some level → request.consistency = some level
  serialConsistency :
    ∀ level, given.serialConsistency = some level → request.serialConsistency = some level
  retryPolicy : ∀ policy, given.retryPolicy = some policy → request.retryPolicy = some policy
  timestamp : ∀ timestamp, given.timestamp = some timestamp → request.timestamp = some timestamp

variable {Token Content Row : Type}

section

variable (session : DefaultSession) (answer : DriverAnswer Token Content Row)
variable (statement : StatementArgument) (options : OptionsArray)

structure Honoured : Prop where
  accepted : (∃ built, buildLocalFromArray options = .ok built) ↔ options.WellTyped
  defined : buildLocalFromArray options ≠ .error .undefined
  stored : ∀ built, buildLocalFromArray options = .ok built → Stored options.given built
  /-- The constructor does the same. -/
  constructed : ExecutionOptions.construct (.array options) = buildLocalFromArray options
  same : ∀ preparation built, ExecutionOptions.construct (.array options) = .ok built →
    execute session preparation answer statement (some (.array options)) =
      execute session preparation answer statement (some (.object built))
  applied : ∀ preparation request,
    (execute session preparation answer statement (some (.array options))).request =
      some request → Applied options.given request

/-- A policy that is read is an object; a policy of another class comes with a timestamp that is
not taken. -/
def PolicyChecked : Prop :=
  ∀ option, options.retryPolicy = some option → option.isReference = false ∧
    ((retryPolicyOf option.value).isSome ∨
      (∃ object, option.value = .object object) ∧ ¬Readable timestampOf options.timestamp)

/-- No retry policy is read that is none; and an array of values of the right kinds has no
references, no page size beyond 32 bits, and no serial consistency for a batch. -/
structure Honourable : Prop where
  policy : options.TypedBefore → options.DirectBefore → PolicyChecked options
  direct : options.WellTyped → options.DirectBefore ∧ Direct options.timestamp
  size : options.WellTyped → ∀ size, options.given.pageSize = some size → size.toInt < 2 ^ 31
  serial : options.WellTyped → ∀ type entries, statement = .object (.batch type entries) →
    options.serialConsistency = none

end

namespace OptionsArray

variable {options : OptionsArray}

theorem readRetryPolicy (direct : Direct options.retryPolicy)
    (typed : Typed retryPolicyOf options.retryPolicy) :
    readField (fun option => some <$> getRetryPolicy option) none options.retryPolicy =
      .ok (options.given.retryPolicy.map .retryPolicy) := by
  simp only [given]
  cases present : options.retryPolicy with
  | none => rfl
  | some option =>
      obtain ⟨policy, denoted⟩ := Option.isSome_iff_exists.mp (typed option present)
      cases given : option.value with
      | object object =>
          cases object with
          | retryPolicy policy =>
              simp only [readField, retryPolicy_ok (direct option present) given]
              simp [given, retryPolicyOf]
          | _ => simp [retryPolicyOf, given] at denoted
      | _ => simp [retryPolicyOf, given] at denoted

theorem build_wellTyped (typed : options.WellTyped) (direct : options.DirectBefore)
    (policy : Direct options.retryPolicy) (timestamp : Direct options.timestamp) :
    buildLocalFromArray options = .ok options.stored :=
  build_ok typed.toTypedBefore direct (readRetryPolicy policy typed.retryPolicy)
    ⟨timestamp, typed.timestamp⟩

/-- Before the retry policy an array fails with an exception, and after it too. -/
theorem build_defined (checked : options.TypedBefore → options.DirectBefore → PolicyChecked options) :
    buildLocalFromArray options ≠ .error .undefined := by
  intro undefined
  by_cases before : options.TypedBefore ∧ options.DirectBefore
  case neg =>
    obtain ⟨error, failed⟩ := build_error before
    rw [failed] at undefined
    cases undefined
  obtain ⟨typed, direct⟩ := before
  obtain ⟨retryPolicy, policy⟩ : ∃ retryPolicy,
      readField (fun option => some <$> getRetryPolicy option) none options.retryPolicy =
        .ok retryPolicy := by
    cases present : options.retryPolicy with
    | none => exact ⟨none, rfl⟩
    | some option =>
        obtain ⟨plain, kind⟩ := checked typed direct option present
        obtain ⟨object, given⟩ : ∃ object, option.value = .object object := by
          apply kind.elim _ And.left
          intro denoted
          cases given : option.value with
          | object object => exact ⟨object, rfl⟩
          | _ => simp [retryPolicyOf, given] at denoted
        exact ⟨some object, by rw [readField, retryPolicy_ok plain given]; rfl⟩
  rw [build_eq typed direct, policy] at undefined
  by_cases timestamp : Readable timestampOf options.timestamp
  · rw [takes_timestamp.readField_ok unsetTimestamp timestamp] at undefined
    cases undefined
  · obtain ⟨error, failed⟩ := takes_timestamp.readField_error unsetTimestamp timestamp
    rw [failed] at undefined
    cases undefined

theorem wellTyped_of_ok {built : ExecutionOptions}
    (checked : options.TypedBefore → options.DirectBefore → PolicyChecked options)
    (accepted : buildLocalFromArray options = .ok built) : options.WellTyped := by
  obtain ⟨typed, direct, timestamp, _⟩ := build_ok_cases accepted
  refine ⟨typed, ?_, timestamp.2⟩
  intro option present
  obtain ⟨_, kind⟩ := checked typed direct option present
  exact kind.resolve_right fun other => other.2 timestamp

end OptionsArray

section

variable {session : DefaultSession} {preparation : Preparation}
variable {answer : DriverAnswer Token Content Row}
variable {statement : StatementArgument} {options : OptionsArray}

structure Carries (settings : ExecutionSettings) (request : Request) : Prop where
  consistency : request.consistency = some settings.consistency
  retryPolicy : request.retryPolicy = settings.retryPolicy
  timestamp : request.timestamp = some settings.timestamp

theorem createSingle_carries {single : SingleStatement} {settings : ExecutionSettings}
    {request : StatementRequest}
    (created : (createSingle preparation single settings).2 = .ok request) :
    Carries settings (.statement request) ∧ request.serialConsistency =
      if 0 ≤ settings.serialConsistency then some settings.serialConsistency else none := by
  unfold createSingle at created
  split at created
  · cases created
  · split at created
    · cases created
    · cases created
      exact ⟨⟨rfl, rfl, rfl⟩, rfl⟩

theorem createBatch_carries {type : Nat} {entries : List BatchEntry}
    {settings : ExecutionSettings} {request : BatchRequest}
    (created : (createBatch preparation type entries settings).2 = .ok request) :
    Carries settings (.batch request) := by
  unfold createBatch at created
  split at created
  · cases created
  · split at created
    · cases created
    · cases created
      exact ⟨rfl, rfl, rfl⟩

/-- A statement is sent with the settings, and a batch without the serial consistency. -/
theorem createRequest_carries {made : Statement} {settings : ExecutionSettings} {sent : Sent}
    (created : (createRequest preparation made settings).2 = .ok sent) :
    Carries settings sent.request ∧
      ((∃ type entries, made = .batch type entries) ∨ sent.request.serialConsistency =
        if 0 ≤ settings.serialConsistency then some settings.serialConsistency else none) := by
  cases made with
  | single single =>
      cases single_ : (createSingle preparation single settings).2 with
      | error interruption =>
          simp only [createRequest, single_] at created
          cases created
      | ok request =>
          simp only [createRequest, single_] at created
          cases created
          obtain ⟨carries, serial⟩ := createSingle_carries single_
          exact ⟨carries, .inr serial⟩
  | batch type entries =>
      cases batch : (createBatch preparation type entries settings).2 with
      | error interruption =>
          simp only [createRequest, batch] at created
          cases created
      | ok request =>
          simp only [createRequest, batch] at created
          cases created
          exact ⟨createBatch_carries batch, .inl ⟨type, entries, rfl⟩⟩

theorem requestOf_cases {options : Option OptionsArgument} {sent : Sent} {timeout : Option Timeout}
    (made : requestOf session preparation statement options = .ok (sent, timeout)) :
    ∃ made settings, statementOf statement = .ok made ∧
      mergeOptions session options = .ok settings ∧
      (createRequest preparation made settings).2 = .ok sent := by
  simp only [requestOf, makeRequest, readArguments] at made
  cases statement_ : statementOf statement with
  | error failure =>
      rw [statement_] at made
      cases made
  | ok statement =>
      cases settings_ : mergeOptions session options with
      | error failure =>
          rw [statement_, settings_] at made
          cases made
      | ok settings =>
          rw [statement_, settings_] at made
          simp only [bind, Except.bind] at made
          cases created : (createRequest preparation statement settings).2 with
          | error interruption =>
              rw [created] at made
              cases made
          | ok request =>
              rw [created] at made
              cases made
              exact ⟨statement, settings, rfl, rfl, created⟩

theorem execute_request_cases {options : Option OptionsArgument} {request : Request}
    (executed : (execute session preparation answer statement options).request = some request) :
    ∃ made settings sent, statementOf statement = .ok made ∧
      mergeOptions session options = .ok settings ∧
      (createRequest preparation made settings).2 = .ok sent ∧ request = sent.request := by
  cases requested : requestOf session preparation statement options with
  | error interruption =>
      rw [(execute_failed answer requested).1] at executed
      cases executed
  | ok both =>
      obtain ⟨sent, timeout⟩ := both
      rw [(execute_sent answer requested).1] at executed
      obtain ⟨made, settings, statement_, merged, created⟩ := requestOf_cases requested
      exact ⟨made, settings, sent, statement_, merged, created, (Option.some.inj executed).symm⟩

theorem levelOf_nonneg {levels : List Int} {argument : PhpArgument} {level : Int}
    (positive : ∀ level ∈ levels, 0 ≤ level) (denoted : levelOf levels argument = some level) :
    0 ≤ level := by
  cases argument with
  | long given =>
      simp only [levelOf] at denoted
      split at denoted
      · rename_i member
        cases denoted
        exact positive _ member
      · cases denoted
  | _ => cases denoted

theorem consistency_nonneg {level : Int} (given : options.given.consistency = some level) :
    0 ≤ level := by
  obtain ⟨option, _, denoted⟩ := Option.bind_eq_some_iff.mp given
  exact levelOf_nonneg (by decide) denoted

theorem serialConsistency_nonneg {level : Int}
    (given : options.given.serialConsistency = some level) : 0 ≤ level := by
  obtain ⟨option, _, denoted⟩ := Option.bind_eq_some_iff.mp given
  exact levelOf_nonneg (by decide) denoted

structure Merged (given : GivenOptions) (settings : ExecutionSettings) : Prop where
  consistency : ∀ level, given.consistency = some level → settings.consistency = level
  serialConsistency : settings.serialConsistency = given.serialConsistency.getD (-1)
  retryPolicy : settings.retryPolicy = given.retryPolicy
  timestamp : settings.timestamp = given.timestamp.getD unsetTimestamp

theorem merge_stored {self settings : ExecutionSettings}
    (merged : self.merge options.stored = .ok settings) : Merged options.given settings := by
  have policy : policyOf options.stored.retryPolicy = .ok options.given.retryPolicy := by
    simp only [OptionsArray.stored]
    cases options.given.retryPolicy <;> rfl
  rw [ExecutionSettings.merge, policy] at merged
  cases merged
  refine ⟨?_, ?_, rfl, rfl⟩
  · intro level given
    have positive := consistency_nonneg given
    simp [OptionsArray.stored, given, positive]
  · simp only [OptionsArray.stored]
    rcases Option.eq_none_or_eq_some options.given.serialConsistency with absent | ⟨level, given⟩
    · simp [absent]
    · simp [given, serialConsistency_nonneg given]

theorem mergeOptions_array {built : ExecutionOptions}
    (accepted : buildLocalFromArray options = .ok built) :
    mergeOptions session (some (.array options)) = session.settings.merge built := by
  simp only [mergeOptions, optionsOf, accepted]
  rfl

theorem mergeOptions_rejected {failure : OptionsFailure}
    (rejected : buildLocalFromArray options = .error failure) :
    mergeOptions session (some (.array options)) = .error failure.failure := by
  simp only [mergeOptions, optionsOf, rejected]
  rfl

theorem execute_same {built : ExecutionOptions}
    (accepted : buildLocalFromArray options = .ok built) :
    execute session preparation answer statement (some (.array options)) =
      execute session preparation answer statement (some (.object built)) := by
  have same : mergeOptions session (some (.array options)) =
      mergeOptions session (some (.object built)) := mergeOptions_array accepted
  simp only [execute, makeRequest, readArguments, same]

namespace Honourable

variable (honourable : Honourable statement options)
include honourable

theorem accepted (typed : options.WellTyped) : buildLocalFromArray options = .ok options.stored := by
  obtain ⟨direct, timestamp⟩ := honourable.direct typed
  apply options.build_wellTyped typed direct _ timestamp
  intro option present
  exact (honourable.policy typed.toTypedBefore direct option present).1

theorem stored (typed : options.WellTyped) : Stored options.given options.stored := by
  refine ⟨rfl, rfl, ?_, rfl, rfl, rfl, rfl, rfl⟩
  simp only [OptionsArray.stored]
  cases given : options.given.pageSize with
  | none => rfl
  | some size =>
      have small := honourable.size typed size given
      obtain ⟨option, _, denoted⟩ := Option.bind_eq_some_iff.mp given
      have positive : 0 < size.toInt := by
        cases value : option.value <;> grind [pageSizeOf]
      simp only [Option.map_some, Option.getD_some]
      rw [BitVec.toInt_setWidth, Int.bmod_def]
      have nat := BitVec.toInt_eq_toNat_of_lt (x := size) (by
        rw [BitVec.toInt_eq_toNat_cond] at positive
        split at positive <;> omega)
      omega

theorem applied (typed : options.WellTyped) {request : Request}
    (executed : (execute session preparation answer statement (some (.array options))).request =
      some request) : Applied options.given request := by
  obtain ⟨made, settings, sent, statement_, merged, created, rfl⟩ := execute_request_cases executed
  rw [mergeOptions_array (honourable.accepted typed)] at merged
  have settled := merge_stored merged
  obtain ⟨carries, serial⟩ := createRequest_carries created
  constructor
  · intro level given
    rw [carries.consistency, settled.consistency level given]
  · intro level given
    cases serial with
    | inl batch =>
        obtain ⟨type, entries, rfl⟩ := batch
        have object : statement = .object (.batch type entries) := by
          cases statement <;> cases statement_
          rfl
        have absent := honourable.serial typed type entries object
        simp [OptionsArray.given, absent] at given
    | inr sent =>
        rw [sent, settled.serialConsistency, given]
        simp [serialConsistency_nonneg given]
  · intro policy given
    rw [carries.retryPolicy, settled.retryPolicy, given]
  · intro timestamp given
    rw [carries.timestamp, settled.timestamp, given]
    rfl

theorem honoured : Honoured session answer statement options := by
  have typed : ∀ built, buildLocalFromArray options = .ok built → options.WellTyped :=
    fun _ => OptionsArray.wellTyped_of_ok honourable.policy
  refine ⟨⟨fun ⟨built, accepted⟩ => typed built accepted,
    fun typed => ⟨_, honourable.accepted typed⟩⟩,
    OptionsArray.build_defined honourable.policy, ?_, rfl, ?_, ?_⟩
  · intro built accepted
    have wellTyped := typed built accepted
    rw [honourable.accepted wellTyped] at accepted
    cases accepted
    exact honourable.stored wellTyped
  · intro preparation built accepted
    exact execute_same accepted
  · intro preparation request executed
    obtain ⟨_, _, _, _, merged, _⟩ := execute_request_cases executed
    cases accepted : buildLocalFromArray options with
    | ok built => exact honourable.applied (typed built accepted) executed
    | error failure =>
        rw [mergeOptions_rejected accepted] at merged
        cases merged

end Honourable

def bindsAll : Preparation where
  bind _ _ _ := .bound .null

theorem bindArguments_bindsAll (handle : DriverHandle) (arguments : Arguments) :
    ∃ bound, bindArguments bindsAll handle arguments = .ok bound :=
  (bindArguments_ok_iff bindsAll handle arguments).mpr fun _ _ => ⟨.null, rfl⟩

theorem createStatement_bindsAll (handle : DriverHandle) (statement : SingleStatement)
    (arguments : Option Arguments) :
    ∃ events content, createStatement bindsAll handle statement arguments = (events, .ok content) := by
  obtain ⟨bound, all⟩ : ∃ bound,
      (arguments.map (bindArguments bindsAll handle)).getD (.ok []) = .ok bound := by
    cases arguments with
    | none => exact ⟨[], rfl⟩
    | some arguments => exact bindArguments_bindsAll handle arguments
  exact ⟨_, _, by rw [createStatement, all]⟩

theorem addStatements_bindsAll (entries : List BatchEntry) (index : Nat) :
    ∃ contents, (addStatements bindsAll index entries).2 = .ok contents := by
  induction entries generalizing index with
  | nil => exact ⟨[], rfl⟩
  | cons entry entries ih =>
      obtain ⟨contents, rest⟩ := ih (index + 1)
      obtain ⟨events, content, created⟩ :=
        createStatement_bindsAll (.entry index) entry.statement entry.arguments
      exact ⟨content :: contents, by simp only [addStatements, created, rest]; rfl⟩

theorem createRequest_bindsAll (type : Nat) (entries : List BatchEntry)
    (settings : ExecutionSettings) : ∃ request,
      (createRequest bindsAll (.batch type entries) settings).2 = .ok (.batch request) := by
  obtain ⟨contents, added⟩ := addStatements_bindsAll entries 0
  generalize statements : addStatements bindsAll 0 entries = made at added
  obtain ⟨events, outcome⟩ := made
  simp only at added
  subst added
  simp only [createRequest, createBatch, statements]
  exact ⟨_, rfl⟩

namespace Honoured

variable (honoured : Honoured session answer statement options)
include honoured

theorem policy (typed : options.TypedBefore) (direct : options.DirectBefore) :
    PolicyChecked options := by
  intro option present
  by_cases object : option.isReference = false ∧ ∃ object, option.value = .object object
  case neg =>
    have undefined := OptionsArray.build_eq typed direct
    rw [present, readField, OptionsArray.retryPolicy_undefined object] at undefined
    exact absurd undefined honoured.defined
  obtain ⟨plain, object, given⟩ := object
  refine ⟨plain, ?_⟩
  by_cases timestamp : Readable timestampOf options.timestamp
  · left
    have read : readField (fun option => some <$> getRetryPolicy option) none
        options.retryPolicy = .ok (some object) := by
      rw [present, readField, OptionsArray.retryPolicy_ok plain given]
      rfl
    have accepted := OptionsArray.build_ok typed direct read timestamp
    exact (honoured.accepted.mp ⟨_, accepted⟩).retryPolicy option present
  · exact .inr ⟨⟨object, given⟩, timestamp⟩

theorem direct (typed : options.WellTyped) : options.DirectBefore ∧ Direct options.timestamp := by
  obtain ⟨built, accepted⟩ := honoured.accepted.mpr typed
  obtain ⟨_, direct, timestamp, _⟩ := OptionsArray.build_ok_cases accepted
  exact ⟨direct, timestamp.1⟩

theorem size (typed : options.WellTyped) (size : BitVec 64)
    (given : options.given.pageSize = some size) : size.toInt < 2 ^ 31 := by
  obtain ⟨built, accepted⟩ := honoured.accepted.mpr typed
  have stored := (honoured.stored built accepted).pageSize
  obtain ⟨_, _, _, _, rfl, _⟩ := OptionsArray.build_ok_cases accepted
  simp only [OptionsArray.stored, given, Option.map_some, Option.getD_some] at stored
  rw [← stored]
  exact BitVec.toInt_lt

theorem serial (typed : options.WellTyped) (type : Nat) (entries : List BatchEntry)
    (batch : statement = .object (.batch type entries)) : options.serialConsistency = none := by
  by_contra present
  obtain ⟨option, present⟩ := Option.ne_none_iff_exists'.mp present
  obtain ⟨level, denoted⟩ := Option.isSome_iff_exists.mp (typed.serialConsistency option present)
  obtain ⟨direct, timestamp⟩ := honoured.direct typed
  have policy : Direct options.retryPolicy := by
    intro option present
    exact (honoured.policy typed.toTypedBefore direct option present).1
  have accepted := OptionsArray.build_wellTyped typed direct policy timestamp
  obtain ⟨settings, merged⟩ : ∃ settings,
      session.settings.merge options.stored = .ok settings := by
    have taken : policyOf options.stored.retryPolicy = .ok options.given.retryPolicy := by
      simp only [OptionsArray.stored]
      cases options.given.retryPolicy <;> rfl
    exact ⟨_, by rw [ExecutionSettings.merge, taken]; rfl⟩
  obtain ⟨request, created⟩ := createRequest_bindsAll type entries settings
  have requested : requestOf session bindsAll statement (some (.array options)) =
      .ok (.batch request, settings.timeout) := by
    subst batch
    have read : readArguments session (.object (.batch type entries)) (some (.array options)) =
        .ok (.batch type entries, settings) := by
      simp only [readArguments, statementOf, mergeOptions_array accepted, merged]
      rfl
    simp only [requestOf, makeRequest, read, created]
    rfl
  have applied := honoured.applied bindsAll _ (execute_sent answer requested).1
  have given : options.given.serialConsistency = some level := by
    simp only [OptionsArray.given, present, Option.bind_some]
    exact denoted
  cases applied.serialConsistency level given

theorem honourable : Honourable statement options :=
  ⟨honoured.policy, honoured.direct, honoured.size, honoured.serial⟩

end Honoured

end

/-- A retry policy that is no object, a page size of more than 32 bits, and a batch with a serial
consistency. -/
theorem options_not_honoured :
    ¬Honoured {} noRows (.string (ascii "SELECT 1")) { retryPolicy := some { value := .null } } ∧
    ¬Honoured {} noRows (.string (ascii "SELECT 1"))
      { pageSize := some { value := .long 4294967297 } } ∧
    ¬Honoured {} noRows (.object (.batch 0 []))
      { serialConsistency := some { value := .long 8 } } := by
  refine ⟨?_, ?_, ?_⟩
  · intro honoured
    exact honoured.defined rfl
  · intro honoured
    have stored := (honoured.stored _ rfl).pageSize
    exact absurd stored (by decide)
  · intro honoured
    have applied := honoured.applied bindsAll _ rfl
    cases applied.serialConsistency 8 rfl

/-- The options are honoured when no retry policy is read that is none, and an array of values of
the right kinds has no references, no page size beyond 32 bits, and no serial consistency for a
batch. -/
theorem honoured_iff (session : DefaultSession) (answer : DriverAnswer Token Content Row)
    (statement : StatementArgument) (options : OptionsArray) :
    Honoured session answer statement options ↔ Honourable statement options :=
  ⟨Honoured.honourable, Honourable.honoured⟩

end PhpDriver
