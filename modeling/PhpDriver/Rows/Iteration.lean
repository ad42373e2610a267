import Mathlib.Logic.Function.Basic
import PhpDriver.Data.Responses
import PhpDriver.Data.Run
import PhpDriver.Rows.Object

namespace PhpDriver

open Data

/-! Iterating over the `Rows` objects of one query. An object refers to a PHP array of rows,
and the place it is at is the internal position of the array. -/

inductive RowsArray where
  | executed
  | nextRows (rows : Nat)
  | futureRows (future : Nat)
deriving DecidableEq

inductive RowsCall where
  | count
  | rewind
  | current
  | key
  | next
  | valid
  | first
deriving DecidableEq

inductive RowsAnswer (Row : Type) where
  | null
  | long (value : Nat)
  | bool (value : Bool)
  | row (row : Row)
deriving DecidableEq

variable {Token Content Row : Type}

section

variable (rows : List Row) (position : Nat)

/-- `zend_hash_get_current_data`, by value. -/
def currentData : RowsAnswer Row :=
  rows[position]?.elim .null .row

def moveForward : Nat :=
  if position < rows.length then position + 1 else position

/-- A method on the array: its internal position afterwards, and the value returned. -/
def rowsCall : RowsCall → Nat × RowsAnswer Row
  | .count => (position, .long rows.length)
  | .rewind => (0, .null)
  | .current => (position, currentData rows position)
  | .key => (position, if position < rows.length then .long position else .null)
  | .next => (moveForward rows position, .null)
  | .valid => (position, .bool (position < rows.length))
  -- the position that is reset is not the one that is read
  | .first => (position, currentData rows position)

/-- What the methods are for: the object has a position of its own, and `first` is the first
row. -/
def privateCall : RowsCall → Nat × RowsAnswer Row
  | .first => (position, currentData rows 0)
  | call => rowsCall rows position call

end

def Query.pages (query : Query Token Content Row) : List (List Row) :=
  query.rows.map RowsObject.rows

structure RowsEntry (Row : Type) where
  self : Nat
  call : RowsCall
  answer : RowsAnswer Row
  moved : Bool

/-- The objects of a query, the array each `Rows` object refers to, the internal positions, and
the calls that were made on the `Rows` objects. -/
structure Iteration (Token Content Row : Type) where
  query : Query Token Content Row
  arrays : List RowsArray := []
  position : RowsArray → Nat := fun _ => 0
  log : List (RowsEntry Row) := []

inductive IterationCall where
  | query (call : Call)
  | rows (self : Nat) (call : RowsCall)

def Call.array : Call → RowsArray
  | .nextPage self _ | .nextPageAsync self => .nextRows self
  | .get future _ => .futureRows future
  | .execute _ | .executeAsync | .isLastPage _ => .executed

namespace Iteration

def step (server : Option Token → CassResult Token Content)
    (decode : Content → Except Exception (List Row)) (state : Iteration Token Content Row) :
    IterationCall → Option (Iteration Token Content Row)
  | .query call => do
      let (query, _) ← queryCall server decode state.query call
      some { state with
        query
        arrays := state.arrays ++
          List.replicate (query.rows.length - state.query.rows.length) call.array }
  | .rows self call => do
      let page ← state.query.pages[self]?
      let array ← state.arrays[self]?
      let (after, answer) := rowsCall page (state.position array) call
      some { state with
        position := Function.update state.position array after
        log := state.log ++ [⟨self, call, answer, after ≠ state.position array⟩] }

variable (state : Iteration Token Content Row) (self : Nat)

def callsOn : List RowsCall :=
  (state.log.filter (·.self = self)).map RowsEntry.call

def answersOn : List (RowsAnswer Row) :=
  (state.log.filter (·.self = self)).map RowsEntry.answer

def privateAnswers (page : List Row) (calls : List RowsCall) : List (RowsAnswer Row) :=
  responses (privateCall page) 0 calls

def Independent : Prop :=
  ∀ self page, state.query.pages[self]? = some page →
    state.answersOn self = privateAnswers page (state.callsOn self)

/-- Whether the last time that the object is rewound lies before a move of the array's position
by another object. -/
def disturbedBy (arrays : List RowsArray) (self : Nat) (disturbed : Bool)
    (entry : RowsEntry Row) : Bool :=
  if entry.self = self then disturbed && entry.call ≠ .rewind
  else disturbed || (entry.moved && arrays[entry.self]? = arrays[self]?)

def disturbed : Bool :=
  state.log.foldl (disturbedBy state.arrays self) false

def atFirst : Bool :=
  (state.query.pages.getD self []).isEmpty || state.arrays[self]?.elim 0 state.position = 0

def undisturbed : IterationCall → Bool
  | .rows self .current | .rows self .key | .rows self .valid => !state.disturbed self
  | .rows self .first => state.atFirst self
  | .rows _ .count | .rows _ .rewind | .rows _ .next | .query _ => true

def Undisturbed (call : IterationCall) : Prop :=
  state.undisturbed call = true

instance (call : IterationCall) : Decidable (state.Undisturbed call) :=
  inferInstanceAs (Decidable (state.undisturbed call = true))

end Iteration

end PhpDriver
