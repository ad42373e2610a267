import PhpDriver.Session.Request

namespace PhpDriver

open Data

/-! The methods of `DefaultSession` and of the futures they return, with what they do to the
handles of the driver. -/

/-- The answer of the driver to a request, and how the result is read. -/
structure DriverAnswer (Token Content Row : Type) where
  wait : WaitOutcome
  result : CassResult Token Content
  decode : Content → Except Exception (List Row)

inductive RowsOutcome (Token Content Row : Type) where
  | null
  | exception (error : ExecutionError)
  /-- A `Rows` object with its rows, and the result if there are more pages. -/
  | rows (rows : List Row) (more : Option (CassResult Token Content))
  | undefined
deriving DecidableEq

def Failure.outcome {Token Content Row : Type} : Failure → RowsOutcome Token Content Row
  | .exception error => .exception error
  | .undefined => .undefined

def Interruption.outcome {Token Content Row : Type} : Interruption → RowsOutcome Token Content Row
  | .failed failure => failure.outcome
  | .silent => .null

/-- What a call does: to the handles, to the driver, and the timeout it waits with. -/
structure Execution (Value : Type) where
  events : List HandleEvent := []
  request : Option Request := none
  timeout : Option (Option Timeout) := none
  outcome : Value

variable {Token Content Row : Type}
variable (session : DefaultSession) (preparation : Preparation)

/-! `execute`. -/

/-- A request that waits to be answered; a statement outlives the call with its rows. -/
inductive Sent where
  | single (request : StatementRequest)
  | batch (request : BatchRequest)

def Sent.request : Sent → Request
  | .single request => .statement request
  | .batch request => .batch request

def Sent.isSingle : Sent → Bool
  | .single _ => true
  | .batch _ => false

def Sent.free : Sent → List HandleEvent
  | .single _ => [.release .statement]
  | .batch _ => [.release .batch]

def createRequest (statement : Statement) (settings : ExecutionSettings) :
    List HandleEvent × Except Interruption Sent :=
  match statement with
  | .single statement =>
      let (events, created) := createSingle preparation statement settings
      (events, created.map .single)
  | .batch type entries =>
      let (events, created) := createBatch preparation type entries settings
      (events, created.map .batch)

def readArguments (statement : StatementArgument) (options : Option OptionsArgument) :
    Except Failure (Statement × ExecutionSettings) := do
  let statement ← statementOf statement
  let settings ← mergeOptions session options
  .ok (statement, settings)

def makeRequest (statement : StatementArgument) (options : Option OptionsArgument) :
    List HandleEvent × Except Interruption (Sent × Option Timeout) :=
  match readArguments session statement options with
  | .error failure => ([], .error (.failed failure))
  | .ok (statement, settings) =>
      let (events, created) := createRequest preparation statement settings
      (events, created.map fun sent => (sent, settings.timeout))

/-- `execute` from the wait on. -/
def awaitRows (answer : DriverAnswer Token Content Row) (sent : Sent) :
    List HandleEvent × RowsOutcome Token Content Row :=
  match answer.wait with
  | .failed exception => (.release .future :: sent.free, .exception (.driver exception))
  | .noResult =>
      (.release .future :: sent.free,
        .exception (.driver (.runtime "Future doesn't contain a result.")))
  | .ready =>
      match answer.decode answer.result.content with
      | .error exception =>
          ([.acquire .result, .release .future, .release .result] ++ sent.free,
            .exception (.driver exception))
      | .ok rows =>
          if sent.isSingle ∧ answer.result.hasMorePages then
            ([.acquire .result, .release .future,
              .newRef .statement, .hold .statement (.newRows, .statement),
              .newRef .result, .hold .result (.newRows, .result),
              .addRef .session, .hold .session (.newRows, .session)],
              .rows rows (some answer.result))
          else
            ([.acquire .result, .release .future, .release .result] ++ sent.free, .rows rows none)

def execute (answer : DriverAnswer Token Content Row) (statement : StatementArgument)
    (options : Option OptionsArgument) : Execution (RowsOutcome Token Content Row) :=
  let (events, made) := makeRequest session preparation statement options
  match made with
  | .error interruption => { events, outcome := interruption.outcome }
  | .ok (sent, timeout) =>
      let (more, outcome) := awaitRows answer sent
      { events := events ++ .acquire .future :: more
        request := some sent.request
        timeout := some timeout
        outcome }

/-! `executeAsync` and `FutureRows::get`. -/

/-- A `FutureRows` object. Its future is null until a request was sent, and only that of a
statement has a session. -/
structure PendingRows (Token Content Row : Type) where
  future : Bool := false
  session : Bool := false
  result : Option (CassResult Token Content) := none
  rows : Option (List Row) := none
deriving DecidableEq

inductive Promise (Future : Type) where
  | exception (error : ExecutionError)
  | future (future : Future)
  | undefined
deriving DecidableEq

def Failure.promise {Future : Type} : Failure → Promise Future
  | .exception error => .exception error
  | .undefined => .undefined

def Sent.keep : Sent → List HandleEvent
  | .single _ =>
      [.newRef .statement, .hold .statement (.futureRows, .statement),
        .acquire .future, .keep .future (.futureRows, .future),
        .addRef .session, .hold .session (.futureRows, .session)]
  | .batch _ => [.acquire .future, .keep .future (.futureRows, .future), .release .batch]

/-- The future is made before the request. -/
def executeAsync (statement : StatementArgument) (options : Option OptionsArgument) :
    Execution (Promise (PendingRows Token Content Row)) :=
  let (events, made) := makeRequest session preparation statement options
  match made with
  | .error (.failed failure) => { events, outcome := failure.promise }
  | .error .silent => { events, outcome := .future {} }
  | .ok (sent, _) =>
      { events := events ++ sent.keep
        request := some sent.request
        outcome := .future { future := true, session := sent.isSingle } }

namespace PendingRows

variable (answer : DriverAnswer Token Content Row) (future : PendingRows Token Content Row)

/-- `php_driver_future_rows_get_result`, where a null future is undefined behaviour. -/
def getResult : Except Failure (CassResult Token Content) :=
  match future.result with
  | some result => .ok result
  | none =>
      if future.future then
        match answer.wait with
        | .ready => .ok answer.result
        | .failed exception => .error (.exception (.driver exception))
        | .noResult =>
            .error (.exception (.driver (.runtime "Future doesn't contain a result.")))
      else .error .undefined

/-- The reference of the session is counted up for more pages, also when there is none. -/
def newRows (rows : List Row) (result : CassResult Token Content) :
    RowsOutcome Token Content Row :=
  if result.hasMorePages then
    if future.session then .rows rows (some result) else .undefined
  else .rows rows none

def get : PendingRows Token Content Row × RowsOutcome Token Content Row :=
  match future.getResult answer with
  | .error failure => (future, failure.outcome)
  | .ok result =>
      let future := { future with result := some result }
      match future.rows.elim (answer.decode result.content) .ok with
      | .error exception => (future, .exception (.driver exception))
      | .ok rows => ({ future with rows := some rows }, future.newRows rows result)

end PendingRows

/-! `prepare`, `prepareAsync` and `FuturePreparedStatement::get`. -/

inductive PreparedOutcome where
  | exception (error : ExecutionError)
  | statement (prepared : Nat)
  | undefined
deriving DecidableEq

def Failure.prepared : Failure → PreparedOutcome
  | .exception error => .exception error
  | .undefined => .undefined

/-- The answer to a request to prepare a statement: a handle of the driver or an exception. -/
abbrev PrepareAnswer :=
  Except Exception Nat

/-- Of the options, only the timeout is used, without the default of the session. -/
def prepareTimeout (options : Option OptionsArgument) : Except Failure (Option Timeout) := do
  match ← optionsOf options with
  | none => .ok none
  | some options => .ok options.timeout

def PrepareAnswer.outcome : PrepareAnswer → PreparedOutcome
  | .ok prepared => .statement prepared
  | .error exception => .exception (.driver exception)

def prepare (answer : PrepareAnswer) (cql : List UInt8) (options : Option OptionsArgument) :
    Execution PreparedOutcome :=
  match prepareTimeout options with
  | .error failure => { outcome := failure.prepared }
  | .ok timeout =>
      { events := [.acquire .future, .release .future]
        request := some (.prepare cql)
        timeout := some timeout
        outcome := PrepareAnswer.outcome answer }

structure PendingStatement where
  preparedStatement : Option Nat := none
deriving DecidableEq

/-- The options are not looked at. -/
def prepareAsync (cql : List UInt8) (_options : Option OptionsArgument) :
    Execution (Promise PendingStatement) :=
  { events := [.acquire .future, .keep .future (.futurePreparedStatement, .future)]
    request := some (.prepare cql)
    outcome := .future {} }

/-- `php_driver_statement_ce` is an interface, of which no object can be made: the statement is
written through a null value. -/
def PendingStatement.get (answer : PrepareAnswer) (future : PendingStatement) :
    PendingStatement × PreparedOutcome :=
  match future.preparedStatement with
  | some prepared => (future, .statement prepared)
  | none =>
      match answer with
      | .error exception => (future, .exception (.driver exception))
      | .ok _ => (future, .undefined)

/-! `close`. -/

def close (answer : Except Exception Unit) (timeout : Option Timeout) :
    Execution (Except ExecutionError Unit) :=
  if session.persist then { outcome := .ok () }
  else
    { events := [.acquire .future, .release .future]
      request := some .close
      timeout := some timeout
      outcome := answer.mapError .driver }

end PhpDriver
