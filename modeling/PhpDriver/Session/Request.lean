import PhpDriver.Data.Ownership
import PhpDriver.Rows.Object
import PhpDriver.Session.Bind
import PhpDriver.Session.Options

namespace PhpDriver

open Data

/-! The requests that `DefaultSession.c` hands to the driver. -/

/-! Handles of the driver, by the variable that a method has them in, and the fields that its
objects keep them in. -/

inductive DriverHandle where
  | future
  | statement
  | batch
  | entry (index : Nat)
  | result
  | session
  /-- A result that is there already. -/
  | cachedResult
  /-- The statement of the object. -/
  | ownStatement
deriving DecidableEq

def DriverHandle.isOwn : DriverHandle → Bool
  | .future | .statement | .batch | .entry _ | .result => true
  | .session | .cachedResult | .ownStatement => false

inductive HandleOwner where
  | rows
  | newRows
  | futureRows
  | futurePreparedStatement
  | persistentSession
  | session
deriving DecidableEq

inductive HandleField where
  | statement
  | session
  | result
  | nextResult
  | future
deriving DecidableEq

/-- What goes with its owner. The persistent list has a destructor, but the objects have no
`free_obj` handler: `php_driver_rows_free` and its like are never installed. -/
def HandleOwner.destructor : HandleOwner → List HandleField
  | .persistentSession => [.future, .session]
  | .rows | .newRows | .futureRows | .futurePreparedStatement | .session => []

abbrev HandleEvent :=
  Ownership DriverHandle (HandleOwner × HandleField)

inductive SingleStatement where
  | simple (cql : List UInt8)
  | prepared (prepared : Nat)
deriving DecidableEq

structure BatchEntry where
  statement : SingleStatement
  arguments : Option Arguments := none

inductive Statement where
  | single (statement : SingleStatement)
  | batch (type : Nat) (entries : List BatchEntry)

/-- What is passed to `execute`: a string, a statement, or something else. -/
inductive StatementArgument where
  | string (cql : List UInt8)
  | object (statement : Statement)
  | other

/-- The exceptions of an execution, by who throws them. -/
inductive ExecutionError where
  | invalid (name expected : String)
  | options (error : OptionError)
  | driver (exception : Exception)
deriving DecidableEq

/-- How the reading of arguments ends that does not succeed. -/
inductive Failure where
  | exception (error : ExecutionError)
  | undefined
deriving DecidableEq

/-- A request may also fail without an exception. -/
inductive Interruption where
  | failed (failure : Failure)
  | silent
deriving DecidableEq

def Interruption.driver (exception : Exception) : Interruption :=
  .failed (.exception (.driver exception))

/-- How an argument is bound. A value of no known class is refused without an exception. -/
inductive BindOutcome where
  | bound (item : CassItem)
  | thrown (exception : Exception)
  | refused

/-- What a request is made of that is not in the program's hands: the binding of the arguments
of each of its statements, and whether the driver accepts its settings. -/
structure Preparation where
  bind : DriverHandle → ParameterKey → Zval → BindOutcome
  settings : Option Exception := none

/-- The driver takes whatever it is handed. An encoder that fails throws something. -/
def Preparation.accepting (gmp : Gmp) (thrown : Exception) : Preparation where
  bind _ _ value :=
    match bindArgument gmp value, value with
    | some item, _ => .bound item
    | none, .foreign => .refused
    | none, _ => .thrown thrown

variable (preparation : Preparation)

def bindArguments (handle : DriverHandle) :
    Arguments → Except Interruption (List (ParameterKey × CassItem))
  | [] => .ok []
  | (key, value) :: arguments =>
      match preparation.bind handle key value with
      | .bound item => (bindArguments handle arguments).map ((key, item) :: ·)
      | .thrown exception => .error (.driver exception)
      | .refused => .error .silent

theorem bindArguments_ok_iff (handle : DriverHandle) (arguments : Arguments) :
    (∃ items, bindArguments preparation handle arguments = .ok items) ↔
      ∀ argument ∈ arguments,
        ∃ item, preparation.bind handle argument.1 argument.2 = .bound item := by
  induction arguments with
  | nil => simp [bindArguments]
  | cons argument arguments ih =>
      obtain ⟨key, value⟩ := argument
      rw [List.forall_mem_cons, ← ih, bindArguments]
      cases preparation.bind handle key value with
      | bound item =>
          cases bindArguments preparation handle arguments <;> simp [Except.map]
      | thrown _ => simp
      | refused => simp

structure StatementContent where
  statement : SingleStatement
  arguments : List (ParameterKey × CassItem)

def SingleStatement.sent : SingleStatement → SingleStatement
  | .simple cql => .simple (cString cql)
  | statement => statement

def createStatement (handle : DriverHandle) (statement : SingleStatement)
    (arguments : Option Arguments) : List HandleEvent × Except Interruption StatementContent :=
  match (arguments.map (bindArguments preparation handle)).getD (.ok []) with
  | .ok arguments => ([.acquire handle], .ok { statement := statement.sent, arguments })
  | .error interruption => ([.acquire handle, .release handle], .error interruption)

def addStatements : Nat → List BatchEntry →
    List HandleEvent × Except Interruption (List StatementContent)
  | _, [] => ([], .ok [])
  | index, entry :: entries =>
      match createStatement preparation (.entry index) entry.statement entry.arguments with
      | (events, .error interruption) => (events, .error interruption)
      | (events, .ok content) =>
          let (more, contents) := addStatements (index + 1) entries
          (events ++ .release (.entry index) :: more, contents.map (content :: ·))

structure StatementRequest where
  content : StatementContent
  consistency : Int
  serialConsistency : Option Int
  pagingSize : Option (BitVec 32)
  pagingStateToken : Option (List UInt8)
  retryPolicy : Option Nat
  timestamp : Int

structure BatchRequest where
  type : Nat
  statements : List StatementContent
  consistency : Int
  retryPolicy : Option Nat
  timestamp : Int

inductive Request where
  | statement (request : StatementRequest)
  | batch (request : BatchRequest)
  | prepare (cql : List UInt8)
  | close

structure DefaultSession where
  persist : Bool := false
  defaultConsistency : Int := 0x0A
  defaultPageSize : BitVec 32 := 5000
  defaultTimeout : Option Timeout := none

structure ExecutionSettings where
  arguments : Option Arguments := none
  consistency : Int
  pageSize : BitVec 32
  pagingStateToken : Option (List UInt8) := none
  timeout : Option Timeout
  serialConsistency : Int := -1
  retryPolicy : Option Nat := none
  timestamp : Int := unsetTimestamp

def DefaultSession.settings (self : DefaultSession) : ExecutionSettings where
  consistency := self.defaultConsistency
  pageSize := self.defaultPageSize
  timeout := self.defaultTimeout

/-- The policy of the object, which is taken for a `RetryPolicy`. -/
def policyOf : Option PhpObject → Except Failure (Option Nat)
  | none => .ok none
  | some (.retryPolicy policy) => .ok (some policy)
  | some _ => .error .undefined

def ExecutionSettings.merge (self : ExecutionSettings) (options : ExecutionOptions) :
    Except Failure ExecutionSettings := do
  let retryPolicy ← policyOf options.retryPolicy
  .ok {
    arguments := options.arguments
    consistency := if 0 ≤ options.consistency then options.consistency else self.consistency
    pageSize := if 0 ≤ options.pageSize.toInt then options.pageSize else self.pageSize
    pagingStateToken := options.pagingStateToken
    timeout := options.timeout <|> self.timeout
    serialConsistency :=
      if 0 ≤ options.serialConsistency then options.serialConsistency else -1
    retryPolicy
    timestamp := options.timestamp }

def OptionsFailure.failure : OptionsFailure → Failure
  | .exception error => .exception (.options error)
  | .undefined => .undefined

def optionsExpected : String :=
  "an instance of Cassandra\\ExecutionOptions or an array or null"

/-- The options that are passed, if any are. -/
def optionsOf : Option OptionsArgument → Except Failure (Option ExecutionOptions)
  | none => .ok none
  | some (.object options) => .ok (some options)
  | some (.array options) =>
      match buildLocalFromArray options with
      | .ok options => .ok (some options)
      | .error failure => .error failure.failure
  | some .other => .error (.exception (.invalid "options" optionsExpected))

def mergeOptions (self : DefaultSession) (options : Option OptionsArgument) :
    Except Failure ExecutionSettings := do
  match ← optionsOf options with
  | none => .ok self.settings
  | some options => self.settings.merge options

def createSingle (statement : SingleStatement) (settings : ExecutionSettings) :
    List HandleEvent × Except Interruption StatementRequest :=
  match createStatement preparation .statement statement settings.arguments with
  | (events, .error interruption) => (events, .error interruption)
  | (events, .ok content) =>
      match preparation.settings with
      | some exception => (events ++ [.release .statement], .error (.driver exception))
      | none =>
          (events, .ok {
            content
            consistency := settings.consistency
            serialConsistency :=
              if 0 ≤ settings.serialConsistency then some settings.serialConsistency else none
            pagingSize := if 0 ≤ settings.pageSize.toInt then some settings.pageSize else none
            pagingStateToken := settings.pagingStateToken
            retryPolicy := settings.retryPolicy
            timestamp := settings.timestamp })

def createBatch (type : Nat) (entries : List BatchEntry) (settings : ExecutionSettings) :
    List HandleEvent × Except Interruption BatchRequest :=
  match addStatements preparation 0 entries with
  | (events, .error interruption) =>
      (.acquire .batch :: events ++ [.release .batch], .error interruption)
  | (events, .ok statements) =>
      match preparation.settings with
      | some exception =>
          (.acquire .batch :: events ++ [.release .batch], .error (.driver exception))
      | none =>
          (.acquire .batch :: events, .ok {
            type
            statements
            consistency := settings.consistency
            retryPolicy := settings.retryPolicy
            timestamp := settings.timestamp })

def statementExpected : String :=
  "a string or an instance of Cassandra\\Statement"

def statementOf : StatementArgument → Except Failure Statement
  | .string cql => .ok (.single (.simple cql))
  | .object statement => .ok statement
  | .other => .error (.exception (.invalid "statement" statementExpected))

end PhpDriver
