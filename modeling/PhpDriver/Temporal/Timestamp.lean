import PhpDriver.Data.FixedWidth

namespace PhpDriver

open Data

/-! The constructor and the properties of `Timestamp.c`. -/

/-- An operation of `int64_t`: an overflow is undefined behaviour, which is `none`. -/
def checkedInt64 (n : Int) : Option (BitVec 64) :=
  if Fits 64 n then some (BitVec.ofInt 64 n) else none

theorem checkedInt64_eq_some_iff {n : Int} {value : BitVec 64} :
    checkedInt64 n = some value ↔ value.toInt = n := by
  rw [checkedInt64]
  constructor
  · intro stored
    split at stored
    · rename_i fits
      cases stored
      exact (toInt_ofInt_iff (by decide)).mpr fits
    · cases stored
  · intro same
    rw [← same, if_pos (fits_toInt value), BitVec.ofInt_toInt]

theorem exists_checkedInt64 {n : Int} (fits : Fits 64 n) :
    ∃ value, checkedInt64 n = some value ∧ value.toInt = n :=
  ⟨_, if_pos fits, (toInt_ofInt_iff (by decide)).mpr fits⟩

structure TimeOfDay where
  tvSec : BitVec 64
  tvUsec : BitVec 64

inductive TimestampArguments where
  | none
  | seconds (seconds : BitVec 64)
  | microseconds (seconds microseconds : BitVec 64)

/-- The milliseconds of an object. Nothing is checked, and nothing is refused. -/
def timestampValue (seconds microseconds : BitVec 64) : Option (BitVec 64) := do
  let value ← checkedInt64 (microseconds.toInt.tdiv 1000)
  let product ← checkedInt64 (seconds.toInt * 1000)
  checkedInt64 (value.toInt + product.toInt)

def timestampInit (time : TimeOfDay) : TimestampArguments → Option (BitVec 64)
  | .none => do
      let milliseconds ← checkedInt64 (time.tvUsec.toInt.tdiv 1000)
      let microseconds ← checkedInt64 (milliseconds.toInt * 1000)
      timestampValue time.tvSec microseconds
  | .seconds seconds => timestampValue seconds 0
  | .microseconds seconds microseconds => timestampValue seconds microseconds

structure TimestampProperties where
  seconds : BitVec 64
  microseconds : BitVec 64

def timestampProperties (timestamp : BitVec 64) : Option TimestampProperties := do
  let sec ← checkedInt64 (timestamp.toInt.tdiv 1000)
  let whole ← checkedInt64 (sec.toInt * 1000)
  let rest ← checkedInt64 (timestamp.toInt - whole.toInt)
  let usec ← checkedInt64 (rest.toInt * 1000)
  some { seconds := sec, microseconds := usec }

theorem timestampValue_eq_some_iff {seconds microseconds value : BitVec 64} :
    timestampValue seconds microseconds = some value ↔
      Fits 64 (seconds.toInt * 1000) ∧
        value.toInt = seconds.toInt * 1000 + microseconds.toInt.tdiv 1000 := by
  have fits : Fits 64 (microseconds.toInt.tdiv 1000) :=
    (fits_tdiv_iff (fits_toInt microseconds) (by decide)).mpr fun least => by omega
  obtain ⟨milliseconds, divided, isQuotient⟩ := exists_checkedInt64 fits
  simp only [timestampValue, divided, Option.bind_eq_bind, Option.bind_some,
    Option.bind_eq_some_iff, checkedInt64_eq_some_iff, isQuotient]
  constructor
  · intro computed
    obtain ⟨product, isProduct, isSum⟩ := computed
    rw [← isProduct]
    exact ⟨fits_toInt product, by omega⟩
  · intro computed
    obtain ⟨productFits, isSum⟩ := computed
    obtain ⟨product, _, isProduct⟩ := exists_checkedInt64 productFits
    exact ⟨product, isProduct, by omega⟩

/-- What is split is put together again, at both ends of the range. -/
theorem timestampProperties_rebuild (timestamp : BitVec 64) :
    ∃ properties, timestampProperties timestamp = some properties ∧
      timestampValue properties.seconds properties.microseconds = some timestamp := by
  have range := fits_toInt timestamp
  have whole := Int.mul_tdiv_add_tmod timestamp.toInt 1000
  have quotient : (timestamp.toInt.tdiv 1000).natAbs = timestamp.toInt.natAbs / 1000 :=
    Int.natAbs_tdiv _ _
  have remainder : (timestamp.toInt.tmod 1000).natAbs = timestamp.toInt.natAbs % 1000 :=
    Int.natAbs_tmod _ _
  simp only [Fits] at range
  obtain ⟨sec, divided, isQuotient⟩ := exists_checkedInt64
    (show Fits 64 (timestamp.toInt.tdiv 1000) by simp only [Fits]; omega)
  obtain ⟨product, multiplied, isProduct⟩ := exists_checkedInt64
    (show Fits 64 (sec.toInt * 1000) by simp only [Fits]; omega)
  obtain ⟨rest, subtracted, isRest⟩ := exists_checkedInt64
    (show Fits 64 (timestamp.toInt - product.toInt) by simp only [Fits]; omega)
  obtain ⟨usec, scaled, isMicroseconds⟩ := exists_checkedInt64
    (show Fits 64 (rest.toInt * 1000) by simp only [Fits]; omega)
  refine ⟨{ seconds := sec, microseconds := usec }, ?_, ?_⟩
  · simp only [timestampProperties, divided, multiplied, subtracted, scaled,
      Option.bind_eq_bind, Option.bind_some]
  · rw [timestampValue_eq_some_iff, ← isProduct, isMicroseconds, Int.mul_tdiv_cancel _ (by decide)]
    exact ⟨fits_toInt product, by omega⟩

/-- The constructor is exact where neither the product nor the sum leaves the range, and
the properties are always good for a copy. -/
theorem timestamp_exact_iff (time : TimeOfDay) (seconds microseconds timestamp : BitVec 64) :
    ((∃ value, timestampInit time (.microseconds seconds microseconds) = some value ∧
        value.toInt = seconds.toInt * 1000 + microseconds.toInt.tdiv 1000) ↔
      Fits 64 (seconds.toInt * 1000) ∧
        Fits 64 (seconds.toInt * 1000 + microseconds.toInt.tdiv 1000)) ∧
      ∃ properties, timestampProperties timestamp = some properties ∧
        timestampInit time (.microseconds properties.seconds properties.microseconds) =
          some timestamp := by
  constructor
  · constructor
    · intro exact_
      obtain ⟨value, stored, isSum⟩ := exact_
      rw [← isSum]
      exact ⟨(timestampValue_eq_some_iff.mp stored).1, fits_toInt value⟩
    · intro inRange
      obtain ⟨product, sum⟩ := inRange
      obtain ⟨value, _, isSum⟩ := exists_checkedInt64 sum
      exact ⟨value, timestampValue_eq_some_iff.mpr ⟨product, isSum⟩, isSum⟩
  · exact timestampProperties_rebuild timestamp

/-- The first number of seconds whose milliseconds do not fit. -/
theorem timestamp_not_exact :
    timestampInit ⟨0, 0⟩ (.microseconds 9223372036854776 0) = none ∧
      ¬ ∀ time seconds microseconds, ∃ value,
        timestampInit time (.microseconds seconds microseconds) = some value ∧
          value.toInt = seconds.toInt * 1000 + microseconds.toInt.tdiv 1000 := by
  refine ⟨by decide +kernel, ?_⟩
  intro exact_
  obtain ⟨value, _, isSum⟩ := exact_ ⟨0, 0⟩ 9223372036854776 0
  have range := fits_toInt value
  rw [isSum] at range
  exact absurd range (by decide)

end PhpDriver
