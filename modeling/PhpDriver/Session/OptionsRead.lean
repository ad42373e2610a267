import PhpDriver.Session.Options

namespace PhpDriver

open Data

/-! What an array of options denotes, and which arrays `build_from_array` accepts. -/

def levelOf (levels : List Int) : PhpArgument → Option Int
  | .long level => if level.toInt ∈ levels then some level.toInt else none
  | _ => none

def pageSizeOf : PhpArgument → Option (BitVec 64)
  | .long size => if 0 < size.toInt then some size else none
  | _ => none

def tokenOf : PhpArgument → Option (List UInt8)
  | .string token => some token
  | _ => none

def timeoutOf : PhpArgument → Option Timeout
  | .long seconds => if 0 < seconds.toInt then some (.long seconds) else none
  | .double bits => if isPositive bits then some (.double bits) else none
  | .null => some .null
  | _ => none

def argumentsOf : PhpArgument → Option Arguments
  | .array arguments => some arguments
  | _ => none

def retryPolicyOf : PhpArgument → Option Nat
  | .object (.retryPolicy policy) => some policy
  | _ => none

def timestampOf : PhpArgument → Option Int
  | .long timestamp => some timestamp.toInt
  | .string text => (parseBigint text).toOption
  | _ => none

/-- What the fields denote, whether they are references or not. -/
structure GivenOptions where
  consistency : Option Int
  serialConsistency : Option Int
  pageSize : Option (BitVec 64)
  pagingStateToken : Option (List UInt8)
  timeout : Option Timeout
  arguments : Option Arguments
  retryPolicy : Option Nat
  timestamp : Option Int

def OptionsArray.given (options : OptionsArray) : GivenOptions where
  consistency := options.consistency.bind fun option => levelOf consistencies option.value
  serialConsistency :=
    options.serialConsistency.bind fun option => levelOf serialConsistencies option.value
  pageSize := options.pageSize.bind fun option => pageSizeOf option.value
  pagingStateToken := options.pagingStateToken.bind fun option => tokenOf option.value
  timeout := options.timeout.bind fun option => timeoutOf option.value
  arguments := options.arguments.bind fun option => argumentsOf option.value
  retryPolicy := options.retryPolicy.bind fun option => retryPolicyOf option.value
  timestamp := options.timestamp.bind fun option => timestampOf option.value

variable {α β : Type}

def Typed (denotes : PhpArgument → Option β) (field : Option OptionValue) : Prop :=
  ∀ option, field = some option → (denotes option.value).isSome

def Direct (field : Option OptionValue) : Prop :=
  ∀ option, field = some option → option.isReference = false

namespace OptionsArray

variable (options : OptionsArray)

structure TypedBefore : Prop where
  consistency : Typed (levelOf consistencies) options.consistency
  serialConsistency : Typed (levelOf serialConsistencies) options.serialConsistency
  pageSize : Typed pageSizeOf options.pageSize
  pagingStateToken : Typed tokenOf options.pagingStateToken
  timeout : Typed timeoutOf options.timeout
  arguments : Typed argumentsOf options.arguments

structure DirectBefore : Prop where
  consistency : Direct options.consistency
  serialConsistency : Direct options.serialConsistency
  pageSize : Direct options.pageSize
  pagingStateToken : Direct options.pagingStateToken
  timeout : Direct options.timeout
  arguments : Direct options.arguments

structure WellTyped : Prop extends TypedBefore options where
  retryPolicy : Typed retryPolicyOf options.retryPolicy
  timestamp : Typed timestampOf options.timestamp

end OptionsArray

/-- A reader takes a direct value of the kind, and throws at everything else. -/
structure Takes (get : OptionValue → Except OptionsFailure α)
    (denotes : PhpArgument → Option β) (store : β → α) : Prop where
  value : ∀ {option : OptionValue} {value : β}, option.isReference = false →
    denotes option.value = some value → get option = .ok (store value)
  otherwise : ∀ {option : OptionValue},
    ¬(option.isReference = false ∧ (denotes option.value).isSome) →
    ∃ error, get option = .error (.exception error)

theorem direct_eq_some {option : OptionValue} (plain : option.isReference = false) :
    option.direct = some option.value := by
  simp [OptionValue.direct, plain]

theorem direct_eq_none {option : OptionValue} (reference : option.isReference = true) :
    option.direct = none := by
  simp [OptionValue.direct, reference]

/-- It is enough to look at what a reader does with a direct value and with none. -/
theorem takes_of_direct {get : OptionValue → Except OptionsFailure α}
    {denotes : PhpArgument → Option β} {store : β → α}
    (direct : ∀ option argument value, option.direct = some argument →
      denotes argument = some value → get option = .ok (store value))
    (ill : ∀ option argument, option.direct = some argument → denotes argument = none →
      ∃ error, get option = .error (.exception error))
    (reference : ∀ option, option.direct = none → ∃ error, get option = .error (.exception error)) :
    Takes get denotes store where
  value plain denoted := direct _ _ _ (direct_eq_some plain) denoted
  otherwise {option} other := by
    cases isReference : option.isReference with
    | true => exact reference option (direct_eq_none isReference)
    | false =>
        apply ill option option.value (direct_eq_some isReference)
        simpa [isReference] using other

theorem takes_level (levels : List Int) (name expected : String) :
    Takes (getLevel levels name expected) (levelOf levels) id := by
  apply takes_of_direct
  · intro option argument level given denoted
    cases argument <;> grind [levelOf, getLevel]
  · intro option argument given ill
    cases argument <;> simp_all [levelOf, getLevel, OptionsFailure.invalid]
  · intro option none
    exact ⟨_, by simp only [getLevel, none]; rfl⟩

theorem takes_pageSize : Takes getPageSize pageSizeOf (·.setWidth 32) := by
  apply takes_of_direct
  · intro option argument size given denoted
    cases argument <;> grind [pageSizeOf, getPageSize]
  · intro option argument given ill
    cases argument <;> simp_all [pageSizeOf, getPageSize, OptionsFailure.invalid]
  · intro option none
    exact ⟨_, by simp only [getPageSize, none]; rfl⟩

theorem takes_token : Takes getPagingStateToken tokenOf id := by
  apply takes_of_direct
  · intro option argument token given denoted
    cases argument <;> grind [tokenOf, getPagingStateToken]
  · intro option argument given ill
    cases argument <;> simp_all [tokenOf, getPagingStateToken, OptionsFailure.invalid]
  · intro option none
    exact ⟨_, by simp only [getPagingStateToken, none]; rfl⟩

theorem takes_timeout : Takes getTimeout timeoutOf id := by
  apply takes_of_direct
  · intro option argument timeout given denoted
    cases argument <;> grind [timeoutOf, getTimeout]
  · intro option argument given ill
    cases argument <;> simp_all [timeoutOf, getTimeout, OptionsFailure.invalid, Int.not_lt.mpr]
  · intro option none
    exact ⟨_, by simp only [getTimeout, none]; rfl⟩

theorem takes_arguments : Takes getArguments argumentsOf id := by
  apply takes_of_direct
  · intro option argument arguments given denoted
    cases argument <;> grind [argumentsOf, getArguments]
  · intro option argument given ill
    cases argument <;> simp_all [argumentsOf, getArguments, OptionsFailure.invalid]
  · intro option none
    exact ⟨_, by simp only [getArguments, none]; rfl⟩

theorem takes_timestamp : Takes getTimestamp timestampOf id := by
  apply takes_of_direct
  · intro option argument timestamp given denoted
    cases argument with
    | string text =>
        cases parsed : parseBigint text <;> simp_all [timestampOf, getTimestamp, Except.toOption]
    | _ => grind [timestampOf, getTimestamp]
  · intro option argument given ill
    cases argument with
    | string text =>
        cases parsed : parseBigint text <;> simp_all [timestampOf, getTimestamp, Except.toOption]
    | _ => simp_all [timestampOf, getTimestamp, OptionsFailure.invalid]
  · intro option none
    exact ⟨_, by simp only [getTimestamp, none]; rfl⟩

theorem Takes.map {γ : Type} {get : OptionValue → Except OptionsFailure α}
    {denotes : PhpArgument → Option β} {store : β → α} (takes : Takes get denotes store)
    (f : α → γ) : Takes (fun option => f <$> get option) denotes (f ∘ store) where
  value plain denoted := by
    rw [takes.value plain denoted]
    rfl
  otherwise other := by
    obtain ⟨error, failed⟩ := takes.otherwise other
    rw [failed]
    exact ⟨error, rfl⟩

def Readable (denotes : PhpArgument → Option β) (field : Option OptionValue) : Prop :=
  Direct field ∧ Typed denotes field

section

variable {get : OptionValue → Except OptionsFailure α} {denotes : PhpArgument → Option β}
variable {store : β → α} (takes : Takes get denotes store) (default : α)
variable {field : Option OptionValue}
include takes

theorem Takes.readField_ok (readable : Readable denotes field) :
    readField get default field =
      .ok (((field.bind fun option => denotes option.value).map store).getD default) := by
  obtain ⟨direct, typed⟩ := readable
  cases field with
  | none => rfl
  | some option =>
      obtain ⟨value, denoted⟩ := Option.isSome_iff_exists.mp (typed option rfl)
      simp only [readField, Option.bind_some, denoted]
      exact takes.value (direct option rfl) denoted

theorem Takes.readField_some (readable : Readable denotes field) :
    readField (fun option => some <$> get option) none field =
      .ok ((field.bind fun option => denotes option.value).map store) := by
  rw [(takes.map some).readField_ok none readable]
  cases field.bind fun option => denotes option.value <;> rfl

theorem Takes.readField_error (unreadable : ¬Readable denotes field) :
    ∃ error, readField get default field = .error (.exception error) := by
  cases field with
  | none => exact absurd ⟨by simp [Direct], by simp [Typed]⟩ unreadable
  | some option =>
      apply takes.otherwise
      simpa [Readable, Direct, Typed] using unreadable

end

namespace OptionsArray

variable (options : OptionsArray)

def stored : ExecutionOptions where
  consistency := options.given.consistency.getD (-1)
  serialConsistency := options.given.serialConsistency.getD (-1)
  pageSize := (options.given.pageSize.map (·.setWidth 32)).getD (-1)
  pagingStateToken := options.given.pagingStateToken
  timeout := options.given.timeout
  arguments := options.given.arguments
  retryPolicy := options.given.retryPolicy.map .retryPolicy
  timestamp := options.given.timestamp.getD unsetTimestamp

variable {options}

theorem build_eq (typed : options.TypedBefore) (direct : options.DirectBefore) :
    buildLocalFromArray options = (do
      let retryPolicy ←
        readField (fun option => some <$> getRetryPolicy option) none options.retryPolicy
      let timestamp ← readField getTimestamp unsetTimestamp options.timestamp
      .ok { options.stored with retryPolicy, timestamp }) := by
  have consistency := (takes_level consistencies "consistency"
    "one of Cassandra::CONSISTENCY_*").readField_ok (-1)
      ⟨direct.consistency, typed.consistency⟩
  have serialConsistency := (takes_level serialConsistencies "serial_consistency"
    "either Cassandra::CONSISTENCY_SERIAL or Cassanra::CASS_CONSISTENCY_LOCAL_SERIAL").readField_ok
      (-1) ⟨direct.serialConsistency, typed.serialConsistency⟩
  have pageSize := takes_pageSize.readField_ok (-1) ⟨direct.pageSize, typed.pageSize⟩
  have token := takes_token.readField_some ⟨direct.pagingStateToken, typed.pagingStateToken⟩
  have timeout := takes_timeout.readField_some ⟨direct.timeout, typed.timeout⟩
  have arguments := takes_arguments.readField_some ⟨direct.arguments, typed.arguments⟩
  simp only [buildLocalFromArray, buildFromArray, getConsistency, getSerialConsistency,
    consistency, serialConsistency, pageSize, token, timeout, arguments]
  simp only [bind, Except.bind, Option.map_id_apply]
  rfl

theorem build_error (unreadable : ¬(options.TypedBefore ∧ options.DirectBefore)) :
    ∃ error, buildLocalFromArray options = .error (.exception error) := by
  simp only [buildLocalFromArray, buildFromArray]
  by_cases consistency : Readable (levelOf consistencies) options.consistency
  case neg =>
    obtain ⟨error, failed⟩ := (takes_level _ _ _).readField_error (-1) consistency
    exact ⟨error, by rw [getConsistency, failed]; rfl⟩
  rw [getConsistency, (takes_level _ _ _).readField_ok (-1) consistency]
  by_cases serialConsistency : Readable (levelOf serialConsistencies) options.serialConsistency
  case neg =>
    obtain ⟨error, failed⟩ := (takes_level _ _ _).readField_error (-1) serialConsistency
    exact ⟨error, by rw [getSerialConsistency, failed]; rfl⟩
  rw [getSerialConsistency, (takes_level _ _ _).readField_ok (-1) serialConsistency]
  by_cases pageSize : Readable pageSizeOf options.pageSize
  case neg =>
    obtain ⟨error, failed⟩ := takes_pageSize.readField_error (-1) pageSize
    exact ⟨error, by rw [failed]; rfl⟩
  rw [takes_pageSize.readField_ok (-1) pageSize]
  by_cases token : Readable tokenOf options.pagingStateToken
  case neg =>
    obtain ⟨error, failed⟩ := (takes_token.map some).readField_error none token
    exact ⟨error, by rw [failed]; rfl⟩
  rw [takes_token.readField_some token]
  by_cases timeout : Readable timeoutOf options.timeout
  case neg =>
    obtain ⟨error, failed⟩ := (takes_timeout.map some).readField_error none timeout
    exact ⟨error, by rw [failed]; rfl⟩
  rw [takes_timeout.readField_some timeout]
  by_cases arguments : Readable argumentsOf options.arguments
  case neg =>
    obtain ⟨error, failed⟩ := (takes_arguments.map some).readField_error none arguments
    exact ⟨error, by rw [failed]; rfl⟩
  exact absurd
    ⟨⟨consistency.2, serialConsistency.2, pageSize.2, token.2, timeout.2, arguments.2⟩,
      ⟨consistency.1, serialConsistency.1, pageSize.1, token.1, timeout.1, arguments.1⟩⟩
    unreadable

theorem retryPolicy_ok {option : OptionValue} {object : PhpObject}
    (direct : option.isReference = false) (given : option.value = .object object) :
    getRetryPolicy option = .ok object := by
  simp [getRetryPolicy, direct_eq_some direct, given]

theorem retryPolicy_undefined {option : OptionValue}
    (other : ¬(option.isReference = false ∧ ∃ object, option.value = .object object)) :
    getRetryPolicy option = .error .undefined := by
  cases isReference : option.isReference with
  | true => simp [getRetryPolicy, direct_eq_none isReference]
  | false =>
      rw [getRetryPolicy, direct_eq_some isReference]
      cases given : option.value with
      | object object => exact absurd ⟨isReference, object, given⟩ other
      | _ => rfl

/-- An array is accepted when its other fields are, and the retry policy is some object. -/
theorem build_ok {retryPolicy : Option PhpObject}
    (typed : options.TypedBefore) (direct : options.DirectBefore)
    (policy : readField (fun option => some <$> getRetryPolicy option) none options.retryPolicy =
      .ok retryPolicy)
    (timestamp : Readable timestampOf options.timestamp) :
    buildLocalFromArray options = .ok { options.stored with retryPolicy } := by
  rw [build_eq typed direct, policy, takes_timestamp.readField_ok unsetTimestamp timestamp]
  simp only [bind, Except.bind, Option.map_id_apply]
  rfl

theorem build_ok_cases {built : ExecutionOptions} (accepted : buildLocalFromArray options = .ok built) :
    options.TypedBefore ∧ options.DirectBefore ∧ Readable timestampOf options.timestamp ∧
      ∃ retryPolicy, built = { options.stored with retryPolicy } ∧
        readField (fun option => some <$> getRetryPolicy option) none options.retryPolicy =
          .ok retryPolicy := by
  by_cases before : options.TypedBefore ∧ options.DirectBefore
  case neg =>
    obtain ⟨error, failed⟩ := build_error before
    rw [failed] at accepted
    cases accepted
  obtain ⟨typed, direct⟩ := before
  cases policy :
      readField (fun option => some <$> getRetryPolicy option) none options.retryPolicy with
  | error failure =>
      rw [build_eq typed direct, policy] at accepted
      cases accepted
  | ok retryPolicy =>
      by_cases timestamp : Readable timestampOf options.timestamp
      · rw [build_ok typed direct policy timestamp] at accepted
        exact ⟨typed, direct, timestamp, retryPolicy, (Except.ok.inj accepted).symm, rfl⟩
      · obtain ⟨error, failed⟩ := takes_timestamp.readField_error unsetTimestamp timestamp
        rw [build_eq typed direct, policy, failed] at accepted
        cases accepted

end OptionsArray

end PhpDriver
