import PhpDriver.Data.BigEndian

namespace PhpDriver.Data.TwosComplement

open PhpDriver.Data

/-! Big-endian two's-complement byte strings of any length. -/

def signBit : List UInt8 → Bool
  | [] => false
  | byte :: _ => 128 ≤ byte.toNat

def toInt (bytes : List UInt8) : Int :=
  if signBit bytes then
    BigEndian.toNat bytes - 256 ^ bytes.length
  else BigEndian.toNat bytes

/-- At least one byte, and the first byte is no mere repetition of the sign of
the second. -/
def Minimal : List UInt8 → Prop
  | [] => False
  | [_] => True
  | first :: second :: _ =>
      ¬ (first = 0 ∧ second.toNat < 128) ∧ ¬ (first = 255 ∧ 128 ≤ second.toNat)

instance : DecidablePred Minimal
  | [] => inferInstanceAs (Decidable False)
  | [_] => inferInstanceAs (Decidable True)
  | first :: second :: _ => inferInstanceAs (Decidable
      (¬ (first = 0 ∧ second.toNat < 128) ∧ ¬ (first = 255 ∧ 128 ≤ second.toNat)))

theorem Minimal.ne_nil {bytes : List UInt8} (hminimal : Minimal bytes) :
    bytes ≠ [] := by
  rintro rfl
  exact hminimal

theorem toInt_of_signBit {bytes : List UInt8} (hsign : signBit bytes = true) :
    toInt bytes = BigEndian.toNat bytes - 256 ^ bytes.length := by
  simp [toInt, hsign]

theorem toInt_of_not_signBit {bytes : List UInt8} (hsign : signBit bytes = false) :
    toInt bytes = BigEndian.toNat bytes := by
  simp [toInt, hsign]

theorem toInt_zero_cons (bytes : List UInt8) :
    toInt (0 :: bytes) = BigEndian.toNat bytes := by
  simp [toInt, signBit]

theorem signBit_cons_iff {byte : UInt8} {rest : List UInt8} :
    signBit (byte :: rest) = true ↔
      128 * 256 ^ rest.length ≤ BigEndian.toNat (byte :: rest) := by
  have hrest := BigEndian.toNat_lt rest
  rw [BigEndian.toNat_cons]
  simp only [signBit, decide_eq_true_eq]
  constructor
  · intro hle
    have := Nat.mul_le_mul_right (256 ^ rest.length) hle
    omega
  · intro hle
    by_contra hlt
    have := Nat.mul_le_mul_right (256 ^ rest.length) (Nat.not_le.mp hlt)
    rw [Nat.succ_mul] at this
    omega

theorem toInt_neg_iff {bytes : List UInt8} :
    toInt bytes < 0 ↔ signBit bytes = true := by
  have hlt := BigEndian.toNat_lt bytes
  cases hsign : signBit bytes with
  | true =>
      rw [toInt_of_signBit hsign]
      have : (BigEndian.toNat bytes : Int) < 256 ^ bytes.length := by exact_mod_cast hlt
      simp only [iff_true]
      omega
  | false =>
      rw [toInt_of_not_signBit hsign]
      simp

/-- A `k`-byte string, `k > 0`, denotes a number of the `8 * k`-bit range. -/
theorem toInt_bounds {bytes : List UInt8} {k : Nat} (hlength : bytes.length = k + 1) :
    -(128 * 256 ^ k : Int) ≤ toInt bytes ∧ toInt bytes < 128 * 256 ^ k := by
  obtain ⟨byte, rest, rfl⟩ := List.exists_cons_of_length_eq_add_one hlength
  obtain rfl : rest.length = k := by simpa using hlength
  have hlt := BigEndian.toNat_lt (byte :: rest)
  have hsignIff := @signBit_cons_iff byte rest
  have hpow : 256 ^ (byte :: rest).length = 256 * 256 ^ rest.length := by
    rw [List.length_cons, Nat.pow_succ, Nat.mul_comm]
  rw [hpow] at hlt
  cases hsign : signBit (byte :: rest) with
  | true =>
      have hle := hsignIff.mp hsign
      rw [toInt_of_signBit hsign]
      zify [hpow] at hlt hle
      push_cast [List.length_cons, pow_succ]
      constructor <;> linarith
  | false =>
      have hlow : BigEndian.toNat (byte :: rest) < 128 * 256 ^ rest.length := by
        by_contra hge
        exact Bool.false_ne_true (hsign.symm.trans (hsignIff.mpr (Nat.not_lt.mp hge)))
      rw [toInt_of_not_signBit hsign]
      zify at hlow
      have hpositive : (0 : Int) < 256 ^ rest.length := by positivity
      constructor <;> linarith

theorem toInt_inj_of_length {left right : List UInt8}
    (hlength : left.length = right.length) (hvalue : toInt left = toInt right) :
    left = right := by
  apply BigEndian.toNat_inj_of_length hlength
  have hsign : signBit left = signBit right := by
    rw [Bool.eq_iff_iff, ← toInt_neg_iff, ← toInt_neg_iff, hvalue]
  cases hright : signBit right with
  | true =>
      rw [toInt_of_signBit (hsign.trans hright), toInt_of_signBit hright, hlength] at hvalue
      omega
  | false =>
      rw [toInt_of_not_signBit (hsign.trans hright), toInt_of_not_signBit hright] at hvalue
      omega

/-- An unsigned string whose top bit is set denotes its number less the
modulus. -/
theorem toInt_ofNat_of_top_bit {n k : Nat} (hlow : 128 * 256 ^ k ≤ n)
    (hhigh : n < 256 ^ (k + 1)) :
    (BigEndian.ofNat n).length = k + 1 ∧
      toInt (BigEndian.ofNat n) = n - 256 ^ (k + 1) := by
  have hlength : (BigEndian.ofNat n).length = k + 1 := by
    apply Nat.le_antisymm (BigEndian.length_ofNat_le_iff.mpr hhigh)
    apply BigEndian.lt_length_ofNat_iff.mpr
    have : 0 < 256 ^ k := by positivity
    omega
  refine ⟨hlength, ?_⟩
  obtain ⟨byte, rest, hbytes⟩ := List.exists_cons_of_length_eq_add_one hlength
  have hrest : rest.length = k := by simpa [hbytes] using hlength
  have hvalue : BigEndian.toNat (byte :: rest) = n := by
    rw [← hbytes, BigEndian.toNat_ofNat]
  have hsign : signBit (byte :: rest) = true := by
    rw [signBit_cons_iff, hvalue, hrest]
    exact hlow
  rw [hbytes, toInt_of_signBit hsign, hvalue, ← hbytes, hlength]

/-- The number of a minimal string of more than one byte needs all its bytes. -/
theorem Minimal.not_fits {bytes : List UInt8} {k : Nat} (hminimal : Minimal bytes)
    (hlength : bytes.length = k + 2) :
    toInt bytes < -(128 * 256 ^ k : Int) ∨ 128 * 256 ^ k ≤ toInt bytes := by
  match bytes, hlength with
  | first :: second :: rest, hlength =>
      obtain rfl : rest.length = k := by simpa using hlength
      obtain ⟨hzero, hones⟩ := hminimal
      have hrest := BigEndian.toNat_lt rest
      have hsecond := second.toNat_lt
      have hfirst := first.toNat_lt
      have hvalue : BigEndian.toNat (first :: second :: rest) =
          (first.toNat * 256 + second.toNat) * 256 ^ rest.length +
            BigEndian.toNat rest := by
        rw [BigEndian.toNat_cons, BigEndian.toNat_cons, List.length_cons, Nat.pow_succ]
        ring
      have hpow : 256 ^ (first :: second :: rest).length =
          65536 * 256 ^ rest.length := by
        simp only [List.length_cons, Nat.pow_succ]
        ring
      have hpositive : 0 < 256 ^ rest.length := by positivity
      cases hsign : signBit (first :: second :: rest) with
      | true =>
          left
          rw [toInt_of_signBit hsign]
          have htop : 128 ≤ first.toNat := by simpa [signBit] using hsign
          have hdigits : first.toNat * 256 + second.toNat + 1 ≤ 65536 - 128 := by
            by_cases hall : first.toNat = 255
            · have hfirstEq : first = 255 := UInt8.toNat_inj.mp (by simpa using hall)
              have : ¬ 128 ≤ second.toNat := fun hle => hones ⟨hfirstEq, hle⟩
              omega
            · omega
          have hmul := Nat.mul_le_mul_right (256 ^ rest.length) hdigits
          rw [Nat.add_mul, Nat.one_mul] at hmul
          have hbound : BigEndian.toNat (first :: second :: rest) + 1 ≤
              (65536 - 128) * 256 ^ rest.length := by
            rw [hvalue]
            omega
          zify [hpow] at hbound
          have hcast : (256 : Int) ^ (first :: second :: rest).length =
              65536 * 256 ^ rest.length := by exact_mod_cast hpow
          rw [hcast]
          norm_num at hbound
          linarith
      | false =>
          right
          rw [toInt_of_not_signBit hsign]
          have hdigits : 128 ≤ first.toNat * 256 + second.toNat := by
            by_cases hall : first.toNat = 0
            · have hfirstEq : first = 0 := UInt8.toNat_inj.mp (by simpa using hall)
              have : ¬ second.toNat < 128 := fun hlt => hzero ⟨hfirstEq, hlt⟩
              omega
            · omega
          have hmul := Nat.mul_le_mul_right (256 ^ rest.length) hdigits
          have hbound : 128 * 256 ^ rest.length ≤
              BigEndian.toNat (first :: second :: rest) := by
            rw [hvalue]
            omega
          exact_mod_cast hbound

theorem two_pow_eq (k : Nat) : 2 ^ (8 * k + 7) = 128 * 256 ^ k := by
  rw [pow_add, pow_mul]
  norm_num
  ring

theorem toInt_repeat_sign {first second : UInt8} {rest : List UInt8}
    (repeats : (first = 0 ∧ second.toNat < 128) ∨ (first = 255 ∧ 128 ≤ second.toNat)) :
    toInt (first :: second :: rest) = toInt (second :: rest) := by
  rcases repeats with ⟨rfl, low⟩ | ⟨rfl, high⟩
  · rw [toInt_zero_cons, toInt_of_not_signBit (by simp [signBit, low])]
  · rw [toInt_of_signBit (by rfl), toInt_of_signBit (by simp [signBit, high]),
      BigEndian.toNat_cons]
    push_cast [List.length_cons, pow_succ]
    ring

/-- A string of more than one byte is minimal as soon as its number needs all
its bytes. -/
theorem minimal_of_not_fits {bytes : List UInt8} {k : Nat}
    (length : bytes.length = k + 2)
    (needs : toInt bytes < -(128 * 256 ^ k : Int) ∨ 128 * 256 ^ k ≤ toInt bytes) :
    Minimal bytes := by
  match bytes, length with
  | first :: second :: rest, length =>
      by_contra redundant
      have repeats : (first = 0 ∧ second.toNat < 128) ∨
          (first = 255 ∧ 128 ≤ second.toNat) :=
        Decidable.or_iff_not_not_and_not.mpr redundant
      have bounds := @toInt_bounds (second :: rest) k (by simpa using length)
      rw [toInt_repeat_sign repeats] at needs
      omega

/-- Minimal strings are the shortest ones: no other string of the same number
is shorter. -/
theorem Minimal.length_le {bytes other : List UInt8} (hminimal : Minimal bytes)
    (hother : other ≠ []) (hvalue : toInt other = toInt bytes) :
    bytes.length ≤ other.length := by
  by_contra hlt
  obtain ⟨k, hk⟩ : ∃ k, other.length = k + 1 :=
    ⟨other.length - 1, by have := List.length_pos_iff.mpr hother; omega⟩
  obtain ⟨j, hj⟩ : ∃ j, bytes.length = j + 2 := ⟨bytes.length - 2, by omega⟩
  have hbounds := toInt_bounds hk
  have hneeds := hminimal.not_fits hj
  have hpow : (256 : Int) ^ k ≤ 256 ^ j :=
    pow_le_pow_right₀ (by decide) (by omega)
  rw [hvalue] at hbounds
  omega

theorem Minimal.eq_of_toInt_eq {left right : List UInt8} (hleft : Minimal left)
    (hright : Minimal right) (hvalue : toInt left = toInt right) : left = right :=
  toInt_inj_of_length
    (Nat.le_antisymm (hleft.length_le hright.ne_nil hvalue.symm)
      (hright.length_le hleft.ne_nil hvalue))
    hvalue

end PhpDriver.Data.TwosComplement
