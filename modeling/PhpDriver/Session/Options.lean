import PhpDriver.Argument
import PhpDriver.Data.Ieee
import PhpDriver.Util.IntegerParse

namespace PhpDriver

open Data

/-! `ExecutionOptions.c` and `util/consistency.c`: the options of an execution. -/

/-- An element of an array, which a program may have bound to a variable by reference. -/
structure OptionValue where
  value : PhpArgument
  isReference : Bool := false

/-- What the type of the `zval` tells; the macros that should follow a reference do nothing. -/
def OptionValue.direct (option : OptionValue) : Option PhpArgument :=
  if option.isReference then none else some option.value

structure OptionsArray where
  consistency : Option OptionValue := none
  serialConsistency : Option OptionValue := none
  pageSize : Option OptionValue := none
  pagingStateToken : Option OptionValue := none
  timeout : Option OptionValue := none
  arguments : Option OptionValue := none
  retryPolicy : Option OptionValue := none
  timestamp : Option OptionValue := none

inductive Timeout where
  | null
  | long (seconds : BitVec 64)
  | double (bits : BitVec 64)
deriving DecidableEq

def unsetTimestamp : Int := -2 ^ 63

/-- `none` stands for an undefined `zval` and for a null pointer. -/
structure ExecutionOptions where
  consistency : Int := -1
  serialConsistency : Int := -1
  pageSize : BitVec 32 := -1
  pagingStateToken : Option (List UInt8) := none
  timeout : Option Timeout := none
  arguments : Option Arguments := none
  retryPolicy : Option PhpObject := none
  timestamp : Int := unsetTimestamp

inductive OptionError where
  /-- `%s must be %s, %s given`, with the value given left out. -/
  | invalid (name expected : String)
  | timestamp (error : NumberError)
deriving DecidableEq

/-- Why an array is not accepted. -/
inductive OptionsFailure where
  | exception (error : OptionError)
  | undefined
deriving DecidableEq

def OptionsFailure.invalid (name expected : String) : OptionsFailure :=
  .exception (.invalid name expected)

/-! `util/consistency.c`. -/

def consistencies : List Int :=
  [0x00, 0x01, 0x02, 0x03, 0x04, 0x05, 0x06, 0x07, 0x08, 0x09, 0x0A]

def serialConsistencies : List Int :=
  [0x08, 0x09]

def getLevel (levels : List Int) (name expected : String) (option : OptionValue) :
    Except OptionsFailure Int :=
  match option.direct with
  | some (.long level) =>
      if level.toInt ∈ levels then .ok level.toInt else .error (.invalid name expected)
  | _ => .error (.invalid name expected)

def getConsistency : OptionValue → Except OptionsFailure Int :=
  getLevel consistencies "consistency" "one of Cassandra::CONSISTENCY_*"

def getSerialConsistency : OptionValue → Except OptionsFailure Int :=
  getLevel serialConsistencies "serial_consistency"
    "either Cassandra::CONSISTENCY_SERIAL or Cassanra::CASS_CONSISTENCY_LOCAL_SERIAL"

def getPageSize (option : OptionValue) : Except OptionsFailure (BitVec 32) :=
  match option.direct with
  | some (.long size) =>
      if size.toInt ≤ 0 then .error (.invalid "page_size" "greater than zero")
      else .ok (size.setWidth 32)
  | _ => .error (.invalid "page_size" "greater than zero")

def getPagingStateToken (option : OptionValue) : Except OptionsFailure (List UInt8) :=
  match option.direct with
  | some (.string token) => .ok token
  | _ => .error (.invalid "paging_state_token" "a string")

def timeoutExpected : String :=
  "a number of seconds greater than zero or null"

def isPositive (bits : BitVec 64) : Bool :=
  Ieee.less 52 0 bits

def getTimeout (option : OptionValue) : Except OptionsFailure Timeout :=
  match option.direct with
  | some (.long seconds) =>
      if 0 < seconds.toInt then .ok (.long seconds)
      else .error (.invalid "timeout" timeoutExpected)
  | some (.double bits) =>
      if isPositive bits then .ok (.double bits) else .error (.invalid "timeout" timeoutExpected)
  | some .null => .ok .null
  | _ => .error (.invalid "timeout" timeoutExpected)

def getArguments (option : OptionValue) : Except OptionsFailure Arguments :=
  match option.direct with
  | some (.array arguments) => .ok arguments
  | _ => .error (.invalid "arguments" "an array")

/-- Only what is not an object is asked for its class. -/
def getRetryPolicy (option : OptionValue) : Except OptionsFailure PhpObject :=
  match option.direct with
  | some (.object object) => .ok object
  | _ => .error .undefined

def getTimestamp (option : OptionValue) : Except OptionsFailure Int :=
  match option.direct with
  | some (.long timestamp) => .ok timestamp.toInt
  | some (.string text) =>
      match parseBigint text with
      | .ok timestamp => .ok timestamp
      | .error error => .error (.exception (.timestamp error))
  | _ => .error (.invalid "timestamp" "an integer or integer string")

def readField (get : OptionValue → Except OptionsFailure α) (field : α) :
    Option OptionValue → Except OptionsFailure α
  | none => .ok field
  | some option => get option

def buildFromArray (self : ExecutionOptions) (options : OptionsArray) :
    Except OptionsFailure ExecutionOptions := do
  let consistency ← readField getConsistency self.consistency options.consistency
  let serialConsistency ←
    readField getSerialConsistency self.serialConsistency options.serialConsistency
  let pageSize ← readField getPageSize self.pageSize options.pageSize
  let pagingStateToken ← readField (fun option => some <$> getPagingStateToken option)
    self.pagingStateToken options.pagingStateToken
  let timeout ← readField (fun option => some <$> getTimeout option) self.timeout options.timeout
  let arguments ←
    readField (fun option => some <$> getArguments option) self.arguments options.arguments
  let retryPolicy ←
    readField (fun option => some <$> getRetryPolicy option) self.retryPolicy options.retryPolicy
  let timestamp ← readField getTimestamp self.timestamp options.timestamp
  .ok { consistency, serialConsistency, pageSize, pagingStateToken, timeout, arguments,
        retryPolicy, timestamp }

def buildLocalFromArray (options : OptionsArray) : Except OptionsFailure ExecutionOptions :=
  buildFromArray {} options

inductive OptionsArgument where
  | array (options : OptionsArray)
  | object (options : ExecutionOptions)
  | other

namespace ExecutionOptions

def construct : OptionsArgument → Except OptionsFailure ExecutionOptions
  | .array options => buildFromArray {} options
  | _ => .error (.invalid "options" "an array")

end ExecutionOptions

end PhpDriver
