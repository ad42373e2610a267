import PhpDriver.Data.Atomic
import PhpDriver.Numeric.Construction
import PhpDriver.Temporal.DurationText

namespace PhpDriver

open Data

/-! The constructors of `Time.c`, `Duration.c` and `Timeuuid.c`, called on a new object or once
more on an old one. -/

inductive TemporalArgument where
  | long (number : BitVec 64)
  | double (bits : BitVec 64)
  | string (text : List UInt8)
  | bigint (number : BitVec 64)
  | other
deriving DecidableEq

/-! `Time`. -/

def numNanosecondsPerDay : Int := 86399999999999

def InDay (time : BitVec 64) : Prop :=
  0 ≤ time.toInt ∧ time.toInt ≤ numNanosecondsPerDay

instance (time : BitVec 64) : Decidable (InDay time) :=
  inferInstanceAs (Decidable (_ ∧ _))

/-- A reading of the clock, and the driver's function that drops the days from its seconds. -/
structure Clock where
  tvSec : Int
  tvNsec : Int
  timeFromEpoch : Int → Int
  timeFromEpoch_eq : timeFromEpoch tvSec = tvSec % 86400 * 1000000000
  tvNsec_nonneg : 0 ≤ tvNsec
  tvNsec_lt : tvNsec < 1000000000

def timeNowNs (clock : Clock) : BitVec 64 :=
  BitVec.ofInt 64 (clock.timeFromEpoch clock.tvSec + clock.tvNsec)

inductive TimeError where
  | parse (error : NumberError)
  | invalidArgument (expected : String)
deriving DecidableEq

inductive TimeCall where
  | now (clock : Clock)
  | nanoseconds (argument : TemporalArgument)

def checkTime (time : BitVec 64) : Called (BitVec 64) TimeError where
  after := time
  thrown :=
    if time.toInt < 0 ∨ numNanosecondsPerDay < time.toInt then
      some (.invalidArgument "nanoseconds since midnight")
    else none

def timeInit (self : BitVec 64) : TimeCall → Called (BitVec 64) TimeError
  | .now clock => { after := timeNowNs clock, thrown := none }
  | .nanoseconds (.long number) => checkTime number
  | .nanoseconds (.string text) =>
      let stored := BitVec.ofInt 64 (storedBigint text)
      match parseBigintOf text (wrapInt text.length) with
      | .error error => { after := stored, thrown := some (.parse error) }
      | .ok _ => checkTime stored
  | .nanoseconds _ =>
      { after := self,
        thrown := some (.invalidArgument
          "a string or int representing a number of nanoseconds since midnight") }

/-- The number is in the range. A text that is no number stores the number that is there. -/
def TimeCall.Keeps (self : BitVec 64) : TimeCall → Prop
  | .nanoseconds (.long number) => InDay number
  | .nanoseconds (.string text) =>
      match parseBigintOf text (wrapInt text.length) with
      | .error _ => storedBigint text = self.toInt
      | .ok number => 0 ≤ number ∧ number ≤ numNanosecondsPerDay
  | _ => True

theorem inDay_timeNowNs (clock : Clock) : InDay (timeNowNs clock) := by
  obtain ⟨tvSec, tvNsec, timeFromEpoch, timeFromEpoch_eq, nonneg, below⟩ := clock
  have fits : Fits 64 (timeFromEpoch tvSec + tvNsec) := by
    rw [timeFromEpoch_eq]
    constructor <;> omega
  have same := (toInt_ofInt_iff (by decide)).mpr fits
  rw [timeFromEpoch_eq] at same
  simp only [InDay, timeNowNs, numNanosecondsPerDay, timeFromEpoch_eq, same]
  omega

theorem checkTime_atomic {self time : BitVec 64} (inDay : InDay time) :
    (checkTime time).Atomic self InDay := by
  have passes : ¬ (time.toInt < 0 ∨ numNanosecondsPerDay < time.toInt) := by
    simp only [InDay] at inDay
    omega
  rw [checkTime, if_neg passes]
  exact Called.atomic_returned inDay

theorem timeInit_atomic {self : BitVec 64} {call : TimeCall} (keeps : call.Keeps self) :
    (timeInit self call).Atomic self InDay := by
  cases call with
  | now clock => exact Called.atomic_returned (inDay_timeNowNs clock)
  | nanoseconds argument =>
      cases argument with
      | long number => exact checkTime_atomic keeps
      | double _ | bigint _ | other => exact Called.atomic_thrown _
      | string text =>
          simp only [TimeCall.Keeps] at keeps
          simp only [timeInit]
          cases parsed : parseBigintOf text (wrapInt text.length) with
          | error error =>
              simp only [parsed] at keeps
              rw [keeps, BitVec.ofInt_toInt]
              exact Called.atomic_thrown _
          | ok number =>
              simp only [parsed] at keeps
              have fits : Fits 64 number := by
                simp only [numNanosecondsPerDay] at keeps
                constructor <;> omega
              apply checkTime_atomic
              rw [storedBigint_of_ok parsed, InDay, (toInt_ofInt_iff (by decide)).mpr fits]
              exact keeps

/-! `Duration`. -/

inductive DurationError where
  /-- `%s must be between %lld and %lld, %lld given`. -/
  | outside (paramName : String) (min max given : Int)
  /-- The same for a double, which the message shows as `%g` does. -/
  | outsideDouble (paramName : String) (min max : Int) (bits : BitVec 64)
  | parse (error : NumberError)
  | invalidArgument (paramName expected : String)
  /-- `A duration must have all non-negative or non-positive attributes`. -/
  | mixedSigns
deriving DecidableEq

def checkParam (paramName : String) (min max value : Int) : Except DurationError Int :=
  if max < value ∨ value < min then .error (.outside paramName min max value) else .ok value

/-- `none` is undefined behaviour: a double that `cass_int64_t` cannot hold. -/
def getParam (paramName : String) (min max : Int) :
    TemporalArgument → Option (Except DurationError Int)
  | .long number => some (checkParam paramName min max number.toInt)
  | .double bits =>
      if doubleOutside min max bits then some (.error (.outsideDouble paramName min max bits))
      else if Ieee.isFinite 52 bits ∧ Fits 64 (truncated bits) then some (.ok (truncated bits))
      else none
  | .string text =>
      match parseBigintOf text (wrapInt text.length) with
      | .error error => some (.error (.parse error))
      | .ok number => some (checkParam paramName min max number)
  | .bigint number => some (checkParam paramName min max number.toInt)
  | .other =>
      some (.error (.invalidArgument paramName
        "a long, a double, a numeric string or a Cassandra\\Bigint"))

def monthsParam : TemporalArgument → Option (Except DurationError Int) :=
  getParam "months" (-2 ^ 31) (2 ^ 31 - 1)

def daysParam : TemporalArgument → Option (Except DurationError Int) :=
  getParam "days" (-2 ^ 31) (2 ^ 31 - 1)

def nanosParam : TemporalArgument → Option (Except DurationError Int) :=
  getParam "nanos" (-2 ^ 63) (2 ^ 63 - 1)

structure DurationCall where
  months : TemporalArgument
  days : TemporalArgument
  nanos : TemporalArgument

/-- Each component is stored before the next one is looked at, and the signs are compared in
the end. -/
def durationInit (self : Duration) (call : DurationCall) :
    Option (Called Duration DurationError) := do
  match ← monthsParam call.months with
  | .error error => some { after := self, thrown := some error }
  | .ok months =>
      let self := { self with months := BitVec.ofInt 32 months }
      match ← daysParam call.days with
      | .error error => some { after := self, thrown := some error }
      | .ok days =>
          let self := { self with days := BitVec.ofInt 32 days }
          match ← nanosParam call.nanos with
          | .error error => some { after := self, thrown := some error }
          | .ok nanos =>
              let self := { self with nanos := BitVec.ofInt 64 nanos }
              some { after := self, thrown := if self.OneSign then none else some .mixedSigns }

namespace DurationCall

structure Accepts (call : DurationCall) (duration : Duration) : Prop where
  months : monthsParam call.months = some (.ok duration.months.toInt)
  days : daysParam call.days = some (.ok duration.days.toInt)
  nanos : nanosParam call.nanos = some (.ok duration.nanos.toInt)
  oneSign : duration.OneSign

/-- The arguments before a refused one are those the object has, and three accepted ones have
one sign. -/
def Keeps (self : Duration) (call : DurationCall) : Prop :=
  match monthsParam call.months, daysParam call.days, nanosParam call.nanos with
  | some (.error _), _, _ => True
  | some (.ok months), some (.error _), _ => months = self.months.toInt
  | some (.ok months), some (.ok days), some (.error _) =>
      months = self.months.toInt ∧ days = self.days.toInt
  | some (.ok months), some (.ok days), some (.ok nanos) =>
      (months ≤ 0 ∧ days ≤ 0 ∧ nanos ≤ 0) ∨ (0 ≤ months ∧ 0 ≤ days ∧ 0 ≤ nanos)
  | _, _, _ => False

end DurationCall

theorem checkParam_eq_ok_iff {paramName : String} {min max value accepted : Int} :
    checkParam paramName min max value = .ok accepted ↔
      value = accepted ∧ min ≤ accepted ∧ accepted ≤ max := by
  rw [checkParam]
  constructor
  · intro passed
    split at passed
    · cases passed
    · cases passed
      exact ⟨rfl, by omega⟩
  · intro known
    obtain ⟨rfl, low, high⟩ := known
    exact if_neg (by omega)

/-- An accepted value is between the bounds, which a double may exceed by its rounding alone. -/
theorem getParam_bounds {paramName : String} {min max value : Int} {argument : TemporalArgument}
    (low : boundAsDouble min ≤ 0) (high : 0 ≤ boundAsDouble max) (least : boundAsDouble min = min)
    (accepted : getParam paramName min max argument = some (.ok value)) :
    min ≤ value ∧ (value ≤ max ∨ value ≤ boundAsDouble max ∧ Fits 64 value) := by
  cases argument with
  | long number | bigint number =>
      obtain ⟨_, bounds⟩ := checkParam_eq_ok_iff.mp (Option.some.inj accepted)
      exact ⟨bounds.1, Or.inl bounds.2⟩
  | other => cases accepted
  | string text =>
      simp only [getParam] at accepted
      split at accepted
      · cases accepted
      · obtain ⟨_, bounds⟩ := checkParam_eq_ok_iff.mp (Option.some.inj accepted)
        exact ⟨bounds.1, Or.inl bounds.2⟩
  | double bits =>
      simp only [getParam] at accepted
      split at accepted
      · cases accepted
      · rename_i inside
        split at accepted
        · rename_i defined
          cases accepted
          have bounds := truncated_bounds low high (Bool.not_eq_true _ ▸ inside) defined.1
          rw [least] at bounds
          exact ⟨bounds.1, Or.inr ⟨bounds.2, defined.2⟩⟩
        · cases accepted

theorem toInt_ofInt_param {paramName : String} {value : Int} {argument : TemporalArgument}
    (accepted : getParam paramName (-2 ^ 31) (2 ^ 31 - 1) argument = some (.ok value)) :
    (BitVec.ofInt 32 value).toInt = value := by
  have bounds := getParam_bounds (by decide +kernel) (by decide +kernel) (by decide +kernel)
    accepted
  have greatest : boundAsDouble (2 ^ 31 - 1) = 2 ^ 31 - 1 := by decide +kernel
  rw [greatest] at bounds
  apply (toInt_ofInt_iff (by decide)).mpr
  constructor <;> omega

theorem toInt_ofInt_nanos {value : Int} {argument : TemporalArgument}
    (accepted : nanosParam argument = some (.ok value)) :
    (BitVec.ofInt 64 value).toInt = value := by
  have bounds := getParam_bounds (by decide +kernel) (by decide +kernel) (by decide +kernel)
    accepted
  apply (toInt_ofInt_iff (by decide)).mpr
  cases bounds.2 with
  | inl high => constructor <;> omega
  | inr fits => exact fits.2

theorem durationInit_atomic {self : Duration} {call : DurationCall}
    {called : Called Duration DurationError} (keeps : call.Keeps self)
    (calls : durationInit self call = some called) : called.Atomic self call.Accepts := by
  simp only [DurationCall.Keeps] at keeps
  simp only [durationInit, Option.bind_eq_bind] at calls
  cases months : monthsParam call.months with
  | none => simp only [months, Option.bind_none] at calls; cases calls
  | some monthsResult =>
      simp only [months, Option.bind_some] at calls keeps
      cases monthsResult with
      | error error => cases calls; exact Called.atomic_thrown error
      | ok newMonths =>
          have isMonths := toInt_ofInt_param months
          cases days : daysParam call.days with
          | none => simp only [days, Option.bind_none] at calls; cases calls
          | some daysResult =>
              simp only [days, Option.bind_some] at calls keeps
              cases daysResult with
              | error error =>
                  cases calls
                  simp only at keeps
                  rw [keeps, BitVec.ofInt_toInt]
                  exact Called.atomic_thrown error
              | ok newDays =>
                  have isDays := toInt_ofInt_param days
                  cases nanos : nanosParam call.nanos with
                  | none => simp only [nanos, Option.bind_none] at calls; cases calls
                  | some nanosResult =>
                      simp only [nanos, Option.bind_some] at calls keeps
                      cases nanosResult with
                      | error error =>
                          cases calls
                          obtain ⟨sameMonths, sameDays⟩ := keeps
                          rw [sameMonths, sameDays, BitVec.ofInt_toInt, BitVec.ofInt_toInt]
                          exact Called.atomic_thrown error
                      | ok newNanos =>
                          have isNanos := toInt_ofInt_nanos nanos
                          cases calls
                          rw [if_pos (by
                            simp only [Duration.OneSign, isMonths, isDays, isNanos]
                            exact keeps)]
                          apply Called.atomic_returned
                          constructor
                          · rw [isMonths, months]
                          · rw [isDays, days]
                          · rw [isNanos, nanos]
                          · simp only [Duration.OneSign, isMonths, isDays, isNanos]
                            exact keeps

/-! `Timeuuid`. -/

structure CassUuid where
  timeAndVersion : BitVec 64
  clockSeqAndNode : BitVec 64
deriving DecidableEq

/-- The functions of the driver. A text that `cass_uuid_from_string` refuses is `none`, and
leaves its output alone. -/
structure UuidFunctions where
  version : CassUuid → Nat
  fromString : List UInt8 → Option CassUuid

structure Drawn (cass : UuidFunctions) where
  uuid : CassUuid
  version_eq : cass.version uuid = 1

inductive TimeuuidError where
  /-- `Timestamp must be a positive integer, %ld given`. -/
  | negativeTimestamp (timestamp : Int)
  /-- `Invalid UUID: '%.*s'`. -/
  | invalidUuid (text : List UInt8)
  /-- `UUID must be of type 1, type %d given`. -/
  | version (version : Nat)
  /-- `Invalid argument - integer or string expected`. -/
  | invalidArgument
deriving DecidableEq

inductive TimeuuidCall (cass : UuidFunctions) where
  | now (drawn : Option (Drawn cass))
  | param (argument : TemporalArgument) (drawn : Option (Drawn cass))

section

variable {cass : UuidFunctions}

def generateTime (self : CassUuid) (drawn : Option (Drawn cass)) : CassUuid :=
  drawn.elim self Drawn.uuid

def timeuuidInit (self : CassUuid) : TimeuuidCall cass → Called CassUuid TimeuuidError
  | .now drawn => { after := generateTime self drawn, thrown := none }
  | .param (.long timestamp) drawn =>
      if timestamp.toInt < 0 then
        { after := self, thrown := some (.negativeTimestamp timestamp.toInt) }
      else { after := generateTime self drawn, thrown := none }
  | .param (.string text) _ =>
      match cass.fromString (cString text) with
      | none => { after := self, thrown := some (.invalidUuid text) }
      -- the version is looked at when the uuid has been stored
      | some uuid =>
          { after := uuid,
            thrown := if cass.version uuid = 1 then none else some (.version (cass.version uuid)) }
  | .param _ _ => { after := self, thrown := some .invalidArgument }

namespace TimeuuidCall

def HasParam : TimeuuidCall cass → Prop
  | .now _ => False
  | .param _ _ => True

/-- The generator is there where one is needed, and a text that denotes a uuid denotes one of version 1 or the one
of the object. -/
def Keeps (self : CassUuid) : TimeuuidCall cass → Prop
  | .param (.long timestamp) drawn =>
      0 ≤ timestamp.toInt → drawn.isSome = true ∨ cass.version self = 1
  | .param (.string text) _ =>
      ∀ uuid, cass.fromString (cString text) = some uuid → cass.version uuid = 1 ∨ uuid = self
  | _ => True

end TimeuuidCall

theorem timeuuidInit_atomic {self : CassUuid} {call : TimeuuidCall cass}
    (keeps : call.Keeps self) : (timeuuidInit self call).Atomic self fun after =>
      (call.HasParam → cass.version after = 1) ∧ (after = self ∨ cass.version after = 1) := by
  cases call with
  | now drawn =>
      apply Called.atomic_returned
      cases drawn with
      | none => exact ⟨False.elim, Or.inl rfl⟩
      | some drawn => exact ⟨False.elim, Or.inr drawn.version_eq⟩
  | param argument drawn =>
      cases argument with
      | double _ | bigint _ | other => exact Called.atomic_thrown _
      | long timestamp =>
          simp only [TimeuuidCall.Keeps] at keeps
          rw [timeuuidInit]
          split
          · exact Called.atomic_thrown _
          · rename_i nonneg
            apply Called.atomic_returned
            cases drawn with
            | none =>
                have isTime := (keeps (by omega)).resolve_left (by simp)
                exact ⟨fun _ => isTime, Or.inl rfl⟩
            | some drawn => exact ⟨fun _ => drawn.version_eq, Or.inr drawn.version_eq⟩
      | string text =>
          simp only [TimeuuidCall.Keeps] at keeps
          rw [timeuuidInit]
          split
          · exact Called.atomic_thrown _
          · rename_i uuid denotes
            split
            · rename_i isTime
              exact Called.atomic_returned ⟨fun _ => isTime, Or.inr isTime⟩
            · rename_i other
              rw [(keeps uuid denotes).resolve_left other]
              exact Called.atomic_thrown _

end

/-! Objects from their creation on, with the calls that meet the condition. -/

def TimeRun : List TimeCall → BitVec 64 → Prop :=
  Run (Called.step fun self call => some (timeInit self call)) (fun self call => call.Keeps self) 0

def DurationRun : List DurationCall → Duration → Prop :=
  Run (Called.step durationInit) (fun self call => call.Keeps self) ⟨0, 0, 0⟩

def TimeuuidRun (cass : UuidFunctions) : List (TimeuuidCall cass) → CassUuid → Prop :=
  Run (Called.step fun self call => some (timeuuidInit self call))
    (fun self call => call.Keeps self) ⟨0, 0⟩

theorem TimeRun.inDay {calls : List TimeCall} {time : BitVec 64} (run : TimeRun calls time) :
    InDay time := by
  have given := Called.run_gives (fun self call called keeps calls =>
    Option.some.inj calls ▸ timeInit_atomic keeps) run
  cases given with
  | inl fresh =>
      rw [fresh]
      decide
  | inr given =>
      obtain ⟨_, _, inDay⟩ := given
      exact inDay

theorem DurationRun.accepted {calls : List DurationCall} {duration : Duration}
    (run : DurationRun calls duration) :
    duration.OneSign ∧ (duration = ⟨0, 0, 0⟩ ∨ ∃ call ∈ calls, call.Accepts duration) := by
  have given := Called.run_gives (fun _ _ _ keeps calls => durationInit_atomic keeps calls) run
  refine ⟨?_, given⟩
  cases given with
  | inl fresh =>
      rw [fresh]
      decide
  | inr given =>
      obtain ⟨_, _, accepts⟩ := given
      exact accepts.oneSign

theorem TimeuuidRun.version {cass : UuidFunctions} {calls : List (TimeuuidCall cass)}
    {uuid : CassUuid} (run : TimeuuidRun cass calls uuid) :
    uuid = ⟨0, 0⟩ ∨ cass.version uuid = 1 := by
  apply Run.invariant _ run
  · exact Or.inl rfl
  · intro self call next known keeps taken
    obtain rfl := Option.some.inj taken
    have kept := timeuuidInit_atomic keeps
    cases thrown : (timeuuidInit self call).thrown with
    | some error =>
        rw [kept.thrown (by simp [thrown])]
        exact known
    | none =>
        cases (kept.returned thrown).2 with
        | inl same =>
            rw [same]
            exact known
        | inr isTime => exact Or.inr isTime

/-- Sixteen bytes of two hex digits each, with or without a dash before them. -/
def uuidBytes : Nat → List UInt8 → Option (List Nat)
  | 0, _ => some []
  | count + 1, text =>
      let text := if text.head? = some '-'.toUInt8 then text.tail else text
      match text with
      | high :: low :: rest =>
          if isXDigit high && isXDigit low then
            (uuidBytes count rest).map fun bytes =>
              (xdigitValue high * 16 + xdigitValue low) :: bytes
          else none
      | _ => none

def UuidFunctions.reference : UuidFunctions where
  version uuid := (uuid.timeAndVersion >>> 60).toNat
  fromString text :=
    if text.length = 36 then
      (uuidBytes 16 text).map fun bytes =>
        let word (bytes : List Nat) := bytes.foldl (fun high low => high * 256 + low) 0
        let low := word (bytes.take 4)
        let mid := word ((bytes.drop 4).take 2)
        let high := word ((bytes.drop 6).take 2)
        { timeAndVersion := BitVec.ofNat 64 (low + mid * 2 ^ 32 + high * 2 ^ 48)
          clockSeqAndNode := BitVec.ofNat 64 (word (bytes.drop 8)) }
    else none

theorem timeRun_five : TimeRun [.nanoseconds (.long 5)] 5 :=
  .cons (show InDay 5 by decide) rfl (.nil _)

theorem durationRun_month : DurationRun [⟨.long 1, .long 0, .long 0⟩] ⟨1, 0, 0⟩ :=
  .cons (show ((1 : Int) ≤ 0 ∧ (0 : Int) ≤ 0 ∧ (0 : Int) ≤ 0) ∨
    ((0 : Int) ≤ 1 ∧ (0 : Int) ≤ 0 ∧ (0 : Int) ≤ 0) by decide) rfl (.nil _)

theorem timeuuidRun_drawn :
    TimeuuidRun .reference [.param (.long 0) (some ⟨⟨0x1000000000000000, 0⟩, by decide⟩)]
      ⟨0x1000000000000000, 0⟩ :=
  .cons (fun _ => Or.inl rfl) rfl (.nil _)

end PhpDriver
