namespace PhpDriver

/-! The `Rows`, `FutureRows` and `FutureValue` objects of one query (`Rows.c`,
`FutureRows.c`, `FutureValue.c`). An object is its index in the list of its kind;
`none` stands for undefined behaviour. All objects of a query share its session and its
statement, whose paging state every further request overwrites. -/

inductive Exception where
  | runtime (message : String)
  | timeout (message : String)
  | invalidArgument (message : String)
  | server (code : Int) (message : String)
deriving DecidableEq

structure CassResult (Token Content : Type) where
  content : Content
  pagingState : Option Token
deriving DecidableEq

def CassResult.hasMorePages (result : CassResult Token Content) : Bool :=
  result.pagingState.isSome

structure RowsObject (Token Content Row : Type) where
  rows : List Row
  nextRows : Option (List Row) := none
  result : Option (CassResult Token Content) := none
  nextResult : Option (CassResult Token Content) := none
  futureNextPage : Option Nat := none
deriving DecidableEq

/-- The future of an execution. The request carries the paging state the statement
had at the call. -/
structure FutureRows (Token Content Row : Type) where
  request : Option Token
  result : Option (CassResult Token Content) := none
  rows : Option (List Row) := none
deriving DecidableEq

inductive FutureObject (Token Content Row : Type) where
  | rows (self : FutureRows Token Content Row)
  | value (value : Option Nat)
deriving DecidableEq

structure Query (Token Content Row : Type) where
  statement : Option Token
  rows : List (RowsObject Token Content Row) := []
  futures : List (FutureObject Token Content Row) := []
deriving DecidableEq

inductive Reply where
  | null
  | bool (value : Bool)
  | rows (handle : Nat)
  | future (handle : Nat)
  | exception (exception : Exception)
deriving DecidableEq

/-! Waiting for a future. The server and the clock decide the outcome. -/

inductive WaitOutcome where
  | ready
  | failed (exception : Exception)
  | noResult
deriving DecidableEq

def WaitOutcome.result : WaitOutcome → Except Exception Unit
  | .ready => .ok ()
  | .failed exception => .error exception
  | .noResult => .error (.runtime "Future doesn't contain a result.")

/-- The object for one page: it keeps the result only when there are more pages. -/
def RowsObject.ofPage (rows : List Row) (result : CassResult Token Content) :
    RowsObject Token Content Row :=
  { rows, result := if result.hasMorePages then some result else none }

namespace Query

variable (server : Option Token → CassResult Token Content)
variable (decode : Content → Except Exception (List Row))
variable (query : Query Token Content Row)

def isLastPage (self : Nat) : Option Bool := do
  let current ← query.rows[self]?
  some (current.result.isNone && current.nextRows.isNone &&
    current.futureNextPage.isNone)

def rowsCreate (self : Nat) :
    Option (Query Token Content Row × Except Exception Nat) := do
  let current ← query.rows[self]?
  let nextResult ← current.nextResult
  match current.nextRows.elim (decode nextResult.content) .ok with
  | .error exception => some (query, .error exception)
  | .ok rows =>
      some ({ query with
          rows := query.rows.set self { current with nextRows := some rows } ++
            [.ofPage rows nextResult] },
        .ok query.rows.length)

def futureRowsGetResult (outcome : WaitOutcome) (self : FutureRows Token Content Row) :
    Except Exception (CassResult Token Content) :=
  match self.result with
  | some result => .ok result
  | none => outcome.result.map fun _ => server self.request

/-- The part of `nextPage` before the new object, with the reply of an early return. -/
def fetchNextResult (self : Nat) (outcome : WaitOutcome) :
    Option (Query Token Content Row × Except Reply Unit) := do
  let current ← query.rows[self]?
  if current.nextResult.isSome then some (query, .ok ()) else
  match current.futureNextPage with
  | some handle =>
      match ← query.futures[handle]? with
      | .value _ =>
          some (query, .error (.exception (.runtime "Unexpected future instance.")))
      | .rows future =>
          match futureRowsGetResult server outcome future with
          | .error exception => some (query, .error (.exception exception))
          | .ok result =>
              some ({ query with
                  rows := query.rows.set self { current with nextResult := some result }
                  futures := query.futures.set handle
                    (.rows { future with result := some result }) },
                .ok ())
  | none =>
      match current.result with
      | none => some (query, .error .null)
      | some result =>
          let query := { query with statement := result.pagingState }
          match outcome.result with
          | .error exception => some (query, .error (.exception exception))
          | .ok () =>
              some ({ query with
                  rows := query.rows.set self
                    { current with nextResult := some (server query.statement) } },
                .ok ())

def nextPage (self : Nat) (outcome : WaitOutcome) :
    Option (Query Token Content Row × Reply) := do
  match ← fetchNextResult server query self outcome with
  | (query, .error reply) => some (query, reply)
  | (query, .ok ()) =>
      let (query, created) ← rowsCreate decode query self
      some (query, match created with
        | .ok handle => .rows handle
        | .error exception => .exception exception)

/-- A future made from a result at hand is kept also when decoding threw, with an
undefined value. -/
def nextPageAsync (self : Nat) : Option (Query Token Content Row × Reply) := do
  let current ← query.rows[self]?
  let handle := query.futures.length
  match current.futureNextPage with
  | some cached => some (query, .future cached)
  | none =>
      if current.nextResult.isSome then do
        let kept := { query with
          rows := query.rows.set self { current with futureNextPage := some handle }
          futures := query.futures ++ [.value none] }
        let (query, created) ← rowsCreate decode kept self
        match created with
        | .ok rows =>
            some ({ query with futures := query.futures.set handle (.value (some rows)) },
              .future handle)
        | .error exception => some (query, .exception exception)
      else
        match current.result with
        | none =>
            some ({ query with futures := query.futures ++ [.value none] }, .future handle)
        | some result =>
            some ({ query with
                statement := result.pagingState
                rows := query.rows.set self { current with futureNextPage := some handle }
                futures := query.futures ++ [.rows { request := result.pagingState }] },
              .future handle)

def get (self : Nat) (outcome : WaitOutcome) :
    Option (Query Token Content Row × Reply) := do
  match ← query.futures[self]? with
  | .value none => some (query, .null)
  | .value (some rows) => some (query, .rows rows)
  | .rows future =>
      match futureRowsGetResult server outcome future with
      | .error exception => some (query, .exception exception)
      | .ok result =>
          match future.rows.elim (decode result.content) .ok with
          | .error exception =>
              some ({ query with
                  futures := query.futures.set self
                    (.rows { future with result := some result }) },
                .exception exception)
          | .ok rows =>
              some ({ query with
                  futures := query.futures.set self
                    (.rows { future with result := some result, rows := some rows })
                  rows := query.rows ++ [.ofPage rows result] },
                .rows query.rows.length)

/-- `DefaultSession::execute` from the wait on. -/
def execute (outcome : WaitOutcome) : Query Token Content Row × Reply :=
  match outcome.result with
  | .error exception => (query, .exception exception)
  | .ok () =>
      let result := server query.statement
      match decode result.content with
      | .error exception => (query, .exception exception)
      | .ok rows =>
          ({ query with rows := query.rows ++ [.ofPage rows result] },
            .rows query.rows.length)

def executeAsync : Query Token Content Row × Reply :=
  ({ query with futures := query.futures ++ [.rows { request := query.statement }] },
    .future query.futures.length)

end Query

inductive Call where
  | execute (outcome : WaitOutcome)
  | executeAsync
  | isLastPage (rows : Nat)
  | nextPage (rows : Nat) (outcome : WaitOutcome)
  | nextPageAsync (rows : Nat)
  | get (future : Nat) (outcome : WaitOutcome)
deriving DecidableEq

def queryCall (server : Option Token → CassResult Token Content)
    (decode : Content → Except Exception (List Row)) (query : Query Token Content Row) :
    Call → Option (Query Token Content Row × Reply)
  | .execute outcome =>
      if query.rows.isEmpty && query.futures.isEmpty then
        some (query.execute server decode outcome)
      else none
  | .executeAsync =>
      if query.rows.isEmpty && query.futures.isEmpty then some query.executeAsync else none
  | .isLastPage self => (query.isLastPage self).map fun value => (query, .bool value)
  | .nextPage self outcome => query.nextPage server decode self outcome
  | .nextPageAsync self => query.nextPageAsync decode self
  | .get self outcome => query.get server decode self outcome

abbrev CallLog :=
  List (Call × Reply)

def loggedCall (server : Option Token → CassResult Token Content)
    (decode : Content → Except Exception (List Row))
    (state : Query Token Content Row × CallLog) (call : Call) :
    Option (Query Token Content Row × CallLog) := do
  let (query, reply) ← queryCall server decode state.1 call
  some (query, state.2 ++ [(call, reply)])

end PhpDriver
