import PhpDriver.Data.Responses
import PhpDriver.Session.Execute

namespace PhpDriver

open Data

/-! When a call and its asynchronous counterpart come to the same. -/

variable {Token Content Row : Type}

section

variable (session : DefaultSession) (preparation : Preparation)
variable (answer : DriverAnswer Token Content Row)
variable (statement : StatementArgument) (options : Option OptionsArgument)

def requestOf : Except Interruption (Sent × Option Timeout) :=
  (makeRequest session preparation statement options).2

def firstGet : Promise (PendingRows Token Content Row) → RowsOutcome Token Content Row
  | .exception error => .exception error
  | .future pending => (pending.get answer).2
  | .undefined => .undefined

def PendingRows.gets (future : PendingRows Token Content Row) (count : Nat) :
    List (RowsOutcome Token Content Row) :=
  responses (fun future answer => future.get answer) future (List.replicate count answer)

structure ExecutionsAgree : Prop where
  request : (execute session preparation answer statement options).request =
    (executeAsync session preparation statement options :
      Execution (Promise (PendingRows Token Content Row))).request
  outcome : firstGet answer (executeAsync session preparation statement options).outcome =
    (execute session preparation answer statement options).outcome
  defined : (execute session preparation answer statement options).outcome ≠ .undefined
  again : ∀ future, (executeAsync session preparation statement options).outcome = .future future →
    ∀ count, future.gets answer count =
      List.replicate count (execute session preparation answer statement options).outcome

/-- A batch is not answered in pages. -/
def Unpaged (sent : Sent) : Prop :=
  sent.isSingle = false → answer.wait = .ready →
    ∀ rows, answer.decode answer.result.content = .ok rows → answer.result.hasMorePages = false

/-- A retry policy is one, no argument is refused in silence, and no batch is answered in
pages. -/
structure Shared : Prop where
  defined : requestOf session preparation statement options ≠ .error (.failed .undefined)
  spoken : requestOf session preparation statement options ≠ .error .silent
  unpaged : ∀ sent timeout, requestOf session preparation statement options = .ok (sent, timeout) →
    Unpaged answer sent

end

/-! When nothing is sent, and no exception is thrown either. -/

section

variable (preparation : Preparation)

/-- An argument is of no known class, and those before it are bound. -/
def RefusesArgument (handle : DriverHandle) (arguments : Arguments) : Prop :=
  ∃ before key value after, arguments = before ++ (key, value) :: after ∧
    (∀ argument ∈ before,
      ∃ item, preparation.bind handle argument.1 argument.2 = .bound item) ∧
    preparation.bind handle key value = .refused

/-- An entry of a batch has such an argument, and the entries before it have none. -/
inductive RefusesEntry : Nat → List BatchEntry → Prop
  | here {index : Nat} {entry : BatchEntry} {entries : List BatchEntry} {arguments : Arguments}
      (passed : entry.arguments = some arguments)
      (refused : RefusesArgument preparation (.entry index) arguments) :
      RefusesEntry index (entry :: entries)
  | later {index : Nat} {entry : BatchEntry} {entries : List BatchEntry}
      (bound : ∀ arguments, entry.arguments = some arguments → ∀ argument ∈ arguments,
        ∃ item, preparation.bind (.entry index) argument.1 argument.2 = .bound item)
      (refused : RefusesEntry (index + 1) entries) : RefusesEntry index (entry :: entries)

def Statement.Refused (settings : ExecutionSettings) : Statement → Prop
  | .single _ => ∃ arguments, settings.arguments = some arguments ∧
      RefusesArgument preparation .statement arguments
  | .batch _ entries => RefusesEntry preparation 0 entries

private theorem map_eq_error_iff {Error Value Other : Type} {outcome : Except Error Value}
    {change : Value → Other} {error : Error} :
    outcome.map change = .error error ↔ outcome = .error error := by
  cases outcome <;> simp [Except.map]

theorem bindArguments_silent_iff (handle : DriverHandle) (arguments : Arguments) :
    bindArguments preparation handle arguments = .error .silent ↔
      RefusesArgument preparation handle arguments := by
  induction arguments with
  | nil => simp [bindArguments, RefusesArgument]
  | cons argument arguments ih =>
      obtain ⟨key, value⟩ := argument
      rw [bindArguments]
      cases outcome : preparation.bind handle key value with
      | bound item =>
          simp only
          rw [map_eq_error_iff, ih]
          constructor
          · rintro ⟨before, other, otherValue, after, rfl, bound, refused⟩
            exact ⟨(key, value) :: before, other, otherValue, after, rfl,
              List.forall_mem_cons.mpr ⟨⟨item, outcome⟩, bound⟩, refused⟩
          · rintro ⟨before, other, otherValue, after, split, bound, refused⟩
            cases before with
            | nil =>
                obtain ⟨head, rfl⟩ := List.cons.inj split
                obtain ⟨rfl, rfl⟩ := Prod.mk.inj head
                rw [outcome] at refused
                cases refused
            | cons first before =>
                obtain ⟨rfl, rfl⟩ := List.cons.inj split
                exact ⟨before, other, otherValue, after, rfl,
                  (List.forall_mem_cons.mp bound).2, refused⟩
      | thrown exception =>
          refine iff_of_false (by simp [Interruption.driver]) ?_
          rintro ⟨before, other, otherValue, after, split, bound, refused⟩
          cases before with
          | nil =>
              obtain ⟨head, rfl⟩ := List.cons.inj split
              obtain ⟨rfl, rfl⟩ := Prod.mk.inj head
              rw [outcome] at refused
              cases refused
          | cons first before =>
              obtain ⟨rfl, rfl⟩ := List.cons.inj split
              obtain ⟨item, taken⟩ := (List.forall_mem_cons.mp bound).1
              rw [outcome] at taken
              cases taken
      | refused => exact iff_of_true rfl ⟨[], key, value, arguments, rfl, by simp, outcome⟩

theorem createStatement_silent_iff (handle : DriverHandle) (statement : SingleStatement)
    (arguments : Option Arguments) :
    (createStatement preparation handle statement arguments).2 = .error .silent ↔
      ∃ list, arguments = some list ∧ RefusesArgument preparation handle list := by
  cases arguments with
  | none => simp [createStatement]
  | some list =>
      simp only [createStatement, Option.map_some, Option.getD_some, Option.some.injEq,
        exists_eq_left', ← bindArguments_silent_iff]
      cases bindArguments preparation handle list <;> simp

theorem createStatement_ok_iff (handle : DriverHandle) (statement : SingleStatement)
    (arguments : Option Arguments) :
    (∃ content, (createStatement preparation handle statement arguments).2 = .ok content) ↔
      ∀ list, arguments = some list → ∀ argument ∈ list,
        ∃ item, preparation.bind handle argument.1 argument.2 = .bound item := by
  cases arguments with
  | none => simp [createStatement]
  | some list =>
      simp only [createStatement, Option.map_some, Option.getD_some, Option.some.injEq,
        forall_eq', ← bindArguments_ok_iff]
      cases bindArguments preparation handle list <;> simp

theorem addStatements_silent_iff (index : Nat) (entries : List BatchEntry) :
    (addStatements preparation index entries).2 = .error .silent ↔
      RefusesEntry preparation index entries := by
  induction entries generalizing index with
  | nil =>
      refine iff_of_false (by simp [addStatements]) ?_
      rintro ⟨⟩
  | cons entry entries ih =>
      have silent_iff := createStatement_silent_iff preparation (.entry index) entry.statement
        entry.arguments
      have ok_iff := createStatement_ok_iff preparation (.entry index) entry.statement
        entry.arguments
      rw [addStatements]
      cases created : createStatement preparation (.entry index) entry.statement
          entry.arguments with
      | mk events outcome =>
          rw [created] at silent_iff ok_iff
          cases outcome with
          | ok content =>
              refine map_eq_error_iff.trans ((ih (index + 1)).trans ⟨?_, ?_⟩)
              · exact fun refused => .later (ok_iff.mp ⟨content, rfl⟩) refused
              · intro refused
                cases refused with
                | here passed refused => cases silent_iff.mpr ⟨_, passed, refused⟩
                | later _ refused => exact refused
          | error interruption =>
              rw [Except.error.injEq] at silent_iff
              simp only [Except.error.injEq]
              refine silent_iff.trans ⟨?_, ?_⟩
              · rintro ⟨arguments, passed, refused⟩
                exact .here passed refused
              · intro refused
                cases refused with
                | here passed refused => exact ⟨_, passed, refused⟩
                | later bound _ =>
                    obtain ⟨content, same⟩ := ok_iff.mpr bound
                    cases same

variable (session : DefaultSession) (statement : StatementArgument)
variable (options : Option OptionsArgument)

theorem createRequest_silent_iff (statement : Statement) (settings : ExecutionSettings) :
    (createRequest preparation statement settings).2 = .error .silent ↔
      statement.Refused preparation settings := by
  cases statement with
  | single statement =>
      simp only [createRequest, map_eq_error_iff, Statement.Refused,
        ← createStatement_silent_iff preparation .statement statement settings.arguments,
        createSingle]
      cases createStatement preparation .statement statement settings.arguments with
      | mk events outcome =>
          cases outcome with
          | error interruption => simp
          | ok content => cases preparation.settings <;> simp [Interruption.driver]
  | batch type entries =>
      simp only [createRequest, map_eq_error_iff, Statement.Refused,
        ← addStatements_silent_iff preparation 0 entries, createBatch]
      cases addStatements preparation 0 entries with
      | mk events outcome =>
          cases outcome with
          | error interruption => simp
          | ok statements => cases preparation.settings <;> simp [Interruption.driver]

/-- A call is silent when the first argument that is not bound is of no known class. -/
theorem requestOf_silent_iff : requestOf session preparation statement options = .error .silent ↔
    ∃ made settings, readArguments session statement options = .ok (made, settings) ∧
      made.Refused preparation settings := by
  rw [requestOf, makeRequest]
  cases readArguments session statement options with
  | error failure => simp
  | ok arguments =>
      obtain ⟨made, settings⟩ := arguments
      simp only [Except.ok.injEq, Prod.mk.injEq]
      refine map_eq_error_iff.trans ((createRequest_silent_iff preparation made settings).trans ?_)
      exact ⟨fun refused => ⟨made, settings, ⟨rfl, rfl⟩, refused⟩,
        fun ⟨_, _, ⟨sameMade, sameSettings⟩, refused⟩ => sameMade ▸ sameSettings ▸ refused⟩

/-! Nothing that is done for a request is undefined but the reading of the arguments. -/

theorem createStatement_defined (handle : DriverHandle) (statement : SingleStatement)
    (arguments : Option Arguments) :
    (createStatement preparation handle statement arguments).2 ≠
      .error (.failed .undefined) := by
  have binds (list : Arguments) :
      bindArguments preparation handle list ≠ .error (.failed .undefined) := by
    induction list with
    | nil => simp [bindArguments]
    | cons argument list ih =>
        obtain ⟨key, value⟩ := argument
        rw [bindArguments]
        cases preparation.bind handle key value with
        | bound item => exact fun undefined => ih (map_eq_error_iff.mp undefined)
        | thrown _ => simp [Interruption.driver]
        | refused => simp
  cases arguments with
  | none => simp [createStatement]
  | some list =>
      have defined := binds list
      simp only [createStatement, Option.map_some, Option.getD_some]
      cases bound : bindArguments preparation handle list with
      | ok _ => simp
      | error interruption =>
          rw [bound] at defined
          simpa using defined

theorem addStatements_defined (index : Nat) (entries : List BatchEntry) :
    (addStatements preparation index entries).2 ≠ .error (.failed .undefined) := by
  induction entries generalizing index with
  | nil => simp [addStatements]
  | cons entry entries ih =>
      have defined := createStatement_defined preparation (.entry index) entry.statement
        entry.arguments
      rw [addStatements]
      cases created : createStatement preparation (.entry index) entry.statement
          entry.arguments with
      | mk events outcome =>
          rw [created] at defined
          cases outcome with
          | ok content => exact fun undefined => ih (index + 1) (map_eq_error_iff.mp undefined)
          | error interruption => simpa using defined

theorem createRequest_defined (statement : Statement) (settings : ExecutionSettings) :
    (createRequest preparation statement settings).2 ≠ .error (.failed .undefined) := by
  cases statement with
  | single statement =>
      have defined := createStatement_defined preparation .statement statement
        settings.arguments
      simp only [createRequest, ne_eq, map_eq_error_iff, createSingle]
      cases created : createStatement preparation .statement statement settings.arguments with
      | mk events outcome =>
          rw [created] at defined
          cases outcome with
          | error interruption => simpa using defined
          | ok content => cases preparation.settings <;> simp [Interruption.driver]
  | batch type entries =>
      have defined := addStatements_defined preparation 0 entries
      simp only [createRequest, ne_eq, map_eq_error_iff, createBatch]
      cases added : addStatements preparation 0 entries with
      | mk events outcome =>
          rw [added] at defined
          cases outcome with
          | error interruption => simpa using defined
          | ok statements => cases preparation.settings <;> simp [Interruption.driver]

theorem policyOf_undefined_iff (object : Option PhpObject) :
    policyOf object = .error .undefined ↔
      ∃ passed, object = some passed ∧ ∀ policy, passed ≠ .retryPolicy policy := by
  cases object with
  | none => simp [policyOf]
  | some object => cases object <;> simp [policyOf]

theorem mergeOptions_undefined_iff :
    mergeOptions session options = .error .undefined ↔ optionsOf options = .error .undefined ∨
      ∃ built, optionsOf options = .ok (some built) ∧
        policyOf built.retryPolicy = .error .undefined := by
  rw [mergeOptions]
  cases optionsOf options with
  | error failure => simp [bind, Except.bind]
  | ok built =>
      cases built with
      | none => simp [bind, Except.bind]
      | some built =>
          simp only [bind, Except.bind, ExecutionSettings.merge]
          cases policy : policyOf built.retryPolicy <;> simp [policy]

/-- A call is undefined when the object that is passed for a retry policy is none, or when
something else than an object is passed for it in an array. -/
theorem requestOf_undefined_iff :
    requestOf session preparation statement options = .error (.failed .undefined) ↔
      (∃ made, statementOf statement = .ok made) ∧
        (optionsOf options = .error .undefined ∨
          ∃ built object, optionsOf options = .ok (some built) ∧
            built.retryPolicy = some object ∧ ∀ policy, object ≠ .retryPolicy policy) := by
  have options_iff : mergeOptions session options = .error .undefined ↔
      optionsOf options = .error .undefined ∨
        ∃ built object, optionsOf options = .ok (some built) ∧
          built.retryPolicy = some object ∧ ∀ policy, object ≠ .retryPolicy policy := by
    simp only [mergeOptions_undefined_iff, policyOf_undefined_iff, exists_and_left]
  have reads : requestOf session preparation statement options = .error (.failed .undefined) ↔
      readArguments session statement options = .error .undefined := by
    rw [requestOf, makeRequest]
    cases readArguments session statement options with
    | error failure => simp
    | ok arguments =>
        obtain ⟨made, settings⟩ := arguments
        refine iff_of_false (fun undefined => ?_) (by simp)
        exact createRequest_defined preparation made settings (map_eq_error_iff.mp undefined)
  rw [reads, ← options_iff, readArguments]
  cases statement with
  | other => simp [statementOf, bind, Except.bind]
  | string _ | object _ =>
      simp only [statementOf, bind, Except.bind]
      cases mergeOptions session options <;> simp

end

section

variable {session : DefaultSession} {preparation : Preparation}
variable {answer : DriverAnswer Token Content Row}
variable {statement : StatementArgument} {options : Option OptionsArgument}

variable (answer) in
theorem execute_failed {interruption : Interruption}
    (failed : requestOf session preparation statement options = .error interruption) :
    (execute session preparation answer statement options).request = none ∧
      (execute session preparation answer statement options).outcome = interruption.outcome := by
  simp only [execute]
  rw [requestOf] at failed
  rw [failed]
  exact ⟨rfl, rfl⟩

variable (answer) in
theorem execute_sent {sent : Sent} {timeout : Option Timeout}
    (made : requestOf session preparation statement options = .ok (sent, timeout)) :
    (execute session preparation answer statement options).request = some sent.request ∧
      (execute session preparation answer statement options).outcome = (awaitRows answer sent).2 := by
  simp only [execute]
  rw [requestOf] at made
  rw [made]
  exact ⟨rfl, rfl⟩

variable (execution : Execution (Promise (PendingRows Token Content Row)))

theorem executeAsync_failed {failure : Failure}
    (failed : requestOf session preparation statement options = .error (.failed failure))
    (same : execution = executeAsync session preparation statement options) :
    execution.request = none ∧ execution.outcome = failure.promise := by
  subst same
  simp only [executeAsync]
  rw [requestOf] at failed
  rw [failed]
  exact ⟨rfl, rfl⟩

theorem executeAsync_silent
    (refused : requestOf session preparation statement options = .error .silent)
    (same : execution = executeAsync session preparation statement options) :
    execution.request = none ∧ execution.outcome = .future {} := by
  subst same
  simp only [executeAsync]
  rw [requestOf] at refused
  rw [refused]
  exact ⟨rfl, rfl⟩

theorem executeAsync_sent {sent : Sent} {timeout : Option Timeout}
    (made : requestOf session preparation statement options = .ok (sent, timeout))
    (same : execution = executeAsync session preparation statement options) :
    execution.request = some sent.request ∧
      execution.outcome = .future { future := true, session := sent.isSingle } := by
  subst same
  simp only [executeAsync]
  rw [requestOf] at made
  rw [made]
  exact ⟨rfl, rfl⟩

/-! What `get` answers. -/

namespace PendingRows

variable {pending : PendingRows Token Content Row} {result : CassResult Token Content}

theorem get_failed {failure : Failure} (got : pending.getResult answer = .error failure) :
    pending.get answer = (pending, failure.outcome) := by
  rw [get, got]

theorem get_undecodable {exception : Exception} (got : pending.getResult answer = .ok result)
    (decoded : pending.rows.elim (answer.decode result.content) .ok = .error exception) :
    pending.get answer =
      ({ pending with result := some result }, .exception (.driver exception)) := by
  rw [get, got]
  simp only [decoded]

theorem get_decoded {rows : List Row} (got : pending.getResult answer = .ok result)
    (decoded : pending.rows.elim (answer.decode result.content) .ok = .ok rows) :
    pending.get answer =
      ({ pending with result := some result, rows := some rows }, pending.newRows rows result) := by
  rw [get, got]
  simp only [decoded]
  rfl

theorem get_again (pending : PendingRows Token Content Row) :
    (pending.get answer).1.get answer = pending.get answer := by
  cases got : pending.getResult answer with
  | error failure => rw [get_failed got, get_failed got]
  | ok result =>
      cases decoded : pending.rows.elim (answer.decode result.content) .ok with
      | error exception =>
          rw [get_undecodable got decoded]
          exact get_undecodable rfl decoded
      | ok rows =>
          rw [get_decoded got decoded]
          exact get_decoded rfl rfl

theorem gets_eq (pending : PendingRows Token Content Row) (count : Nat) :
    pending.gets answer count = List.replicate count (pending.get answer).2 := by
  induction count generalizing pending with
  | zero => rfl
  | succ count ih =>
      have rest := ih (pending.get answer).1
      rw [get_again] at rest
      rw [List.replicate_succ, ← rest]
      rfl

end PendingRows

theorem get_sent (sent : Sent) (unpaged : Unpaged answer sent) :
    (PendingRows.get answer { future := true, session := sent.isSingle }).2 =
      (awaitRows answer sent).2 := by
  unfold awaitRows
  cases wait : answer.wait with
  | failed exception =>
      rw [PendingRows.get_failed (by simp [PendingRows.getResult, wait]; rfl)]
      rfl
  | noResult =>
      rw [PendingRows.get_failed (by simp [PendingRows.getResult, wait]; rfl)]
      rfl
  | ready =>
      have got : PendingRows.getResult answer
          { future := true, session := sent.isSingle } = .ok answer.result := by
        simp [PendingRows.getResult, wait]
      cases decoded : answer.decode answer.result.content with
      | error exception => rw [PendingRows.get_undecodable got decoded]
      | ok rows =>
          rw [PendingRows.get_decoded got decoded]
          cases single : sent.isSingle with
          | true => cases more : answer.result.hasMorePages <;> simp [PendingRows.newRows, more]
          | false => simp [PendingRows.newRows, unpaged single wait rows decoded]

theorem get_paged {sent : Sent} (paged : ¬Unpaged answer sent) :
    (PendingRows.get answer { future := true, session := sent.isSingle }).2 = .undefined := by
  simp only [Unpaged, not_forall] at paged
  obtain ⟨batch, ready, rows, decoded, more⟩ := paged
  have got : PendingRows.getResult answer
      { future := true, session := sent.isSingle } = .ok answer.result := by
    simp [PendingRows.getResult, ready]
  rw [PendingRows.get_decoded got decoded]
  simp [PendingRows.newRows, batch, more]

theorem awaitRows_defined (sent : Sent) : (awaitRows answer sent).2 ≠ .undefined := by
  unfold awaitRows
  split
  · simp
  · simp
  · split
    · simp
    · split <;> simp

theorem Shared.agree (shared : Shared session preparation answer statement options) :
    ExecutionsAgree session preparation answer statement options := by
  cases made : requestOf session preparation statement options with
  | error interruption =>
      obtain ⟨noRequest, outcome⟩ := execute_failed answer made
      cases interruption with
      | silent => exact absurd made shared.spoken
      | failed failure =>
          obtain ⟨asyncRequest, asyncOutcome⟩ := executeAsync_failed
            (executeAsync session preparation statement options :
              Execution (Promise (PendingRows Token Content Row))) made rfl
          cases failure with
          | undefined => exact absurd made shared.defined
          | exception error =>
              refine ⟨noRequest.trans asyncRequest.symm, ?_, ?_, ?_⟩
              · rw [asyncOutcome, outcome]
                rfl
              · rw [outcome]
                simp [Interruption.outcome, Failure.outcome]
              · intro pending future
                rw [asyncOutcome] at future
                cases future
  | ok made_ =>
      obtain ⟨sent, timeout⟩ := made_
      obtain ⟨request, outcome⟩ := execute_sent answer made
      obtain ⟨asyncRequest, asyncOutcome⟩ := executeAsync_sent
        (executeAsync session preparation statement options :
          Execution (Promise (PendingRows Token Content Row))) made rfl
      have first := get_sent sent (shared.unpaged sent timeout made)
      refine ⟨request.trans asyncRequest.symm, ?_, ?_, ?_⟩
      · rw [asyncOutcome, outcome]
        exact first
      · rw [outcome]
        exact awaitRows_defined sent
      · intro pending future count
        rw [asyncOutcome] at future
        obtain rfl := Promise.future.inj future
        rw [PendingRows.gets_eq, first, outcome]

theorem ExecutionsAgree.shared (agree : ExecutionsAgree session preparation answer statement options) :
    Shared session preparation answer statement options := by
  constructor
  · intro made
    obtain ⟨_, outcome⟩ := execute_failed answer made
    exact agree.defined outcome
  · intro made
    obtain ⟨_, outcome⟩ := execute_failed answer made
    obtain ⟨_, asyncOutcome⟩ := executeAsync_silent
      (executeAsync session preparation statement options :
        Execution (Promise (PendingRows Token Content Row))) made rfl
    have same := agree.outcome
    rw [asyncOutcome, outcome] at same
    cases same
  · intro sent timeout made
    by_contra paged
    obtain ⟨_, asyncOutcome⟩ := executeAsync_sent
      (executeAsync session preparation statement options :
        Execution (Promise (PendingRows Token Content Row))) made rfl
    have same := agree.outcome
    rw [asyncOutcome] at same
    exact agree.defined (same.symm.trans (get_paged paged))

end

/-! `prepare`. -/

section

variable (answer : PrepareAnswer) (cql : List UInt8)

def firstPrepared : Promise PendingStatement → PreparedOutcome
  | .exception error => .exception error
  | .future pending => (pending.get answer).2
  | .undefined => .undefined

structure PreparationsAgree : Prop where
  request : (prepare answer cql none).request = (prepareAsync cql none).request
  outcome : firstPrepared answer (prepareAsync cql none).outcome =
    (prepare answer cql none).outcome
  again : ∀ pending, (prepareAsync cql none).outcome = .future pending → ∀ count,
    responses (fun pending answer => PendingStatement.get answer pending) pending
        (List.replicate count answer) =
      List.replicate count (prepare answer cql none).outcome

theorem preparationsAgree_iff : PreparationsAgree answer cql ↔ ∃ error, answer = .error error := by
  constructor
  · intro agree
    cases answer with
    | error exception => exact ⟨exception, rfl⟩
    | ok prepared =>
        have same : PreparedOutcome.undefined = .statement prepared := agree.outcome
        cases same
  · rintro ⟨error, rfl⟩
    refine ⟨rfl, rfl, ?_⟩
    intro pending future count
    obtain rfl := Promise.future.inj future
    induction count with
    | zero => rfl
    | succ count ih =>
        rw [List.replicate_succ, List.replicate_succ, ← ih]
        rfl

end

/-- The answer to a query without rows. -/
def noRows : DriverAnswer Nat Unit Unit where
  wait := .ready
  result := { content := (), pagingState := none }
  decode _ := .ok []

def acceptingPreparation : Preparation :=
  .accepting Gmp.reference (.runtime "")

end PhpDriver
