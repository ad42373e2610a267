import Mathlib.Data.Nat.Factorization.Basic
import PhpDriver.Data.TwosComplement
import PhpDriver.Gmp

namespace PhpDriver

open Data

variable (gmp : Gmp)

/-! The varint codec of `util/math.c`. The byte strings stand for the buffer and
the size handed over with it. -/

def importTwosComplement : List UInt8 → Option Int
  | [] => none -- `data[0]` is read before the size is looked at
  | first :: rest =>
      let number := gmp.mpzImport (first :: rest)
      if first &&& 0x80 = 0x80 then
        some (number - 2 ^ (8 * (first :: rest).length))
      else some number

def exportTwosComplement (number : Int) : List UInt8 :=
  if number.sign = 0 then [0]
  else if number.sign = -1 then
    let n := gmp.mpzSizeinbase number 2 / 8 + 1
    -- for one byte the unsigned bound wraps around to a position no bit has
    let n := if (gmp.mpzScan1 number 0 : Int) = 8 * (n - 1 : Int) - 1 then n - 1 else n
    gmp.mpzExport (number + 2 ^ (8 * n))
  else
    let size := (gmp.mpzSizeinbase number 2 + 7) / 8 + 1
    (0 :: gmp.mpzExport number).take size

/-- The odd multiples, from 3 to 255, of a negative power of two that fills its
bytes: the scan for the lowest set bit takes them for the power itself. -/
def ScanMistakes (number : Int) : Prop :=
  ∃ k q : Nat, q % 2 = 1 ∧ 3 ≤ q ∧ q ≤ 255 ∧ number = -(q * (128 * 256 ^ k))

theorem ScanMistakes.dvd {number : Int} (mistakes : ScanMistakes number) :
    128 ∣ number := by
  obtain ⟨k, q, _, _, _, rfl⟩ := mistakes
  exact ⟨-(q * 256 ^ k), by ring⟩

private theorem and_sign_mask (byte : UInt8) :
    byte &&& 0x80 = 0x80 ↔ 128 ≤ byte.toNat := by
  have mask : ∀ bits : BitVec 8, bits &&& 0x80 = 0x80 ↔ 128 ≤ bits.toNat := by
    decide +kernel
  rw [← UInt8.toBitVec_inj]
  exact mask byte.toBitVec

theorem importTwosComplement_eq {bytes : List UInt8} (nonempty : bytes ≠ []) :
    importTwosComplement gmp bytes = some (TwosComplement.toInt bytes) := by
  cases bytes with
  | nil => exact absurd rfl nonempty
  | cons first rest =>
      have pow : (2 : Int) ^ (8 * (first :: rest).length) =
          256 ^ (first :: rest).length := by
        rw [pow_mul]
        norm_num
      simp only [importTwosComplement, gmp.import_eq, and_sign_mask, pow]
      by_cases sign : 128 ≤ first.toNat
      · simp [TwosComplement.toInt, TwosComplement.signBit, sign]
      · simp [TwosComplement.toInt, TwosComplement.signBit, sign]

theorem exportTwosComplement_zero : exportTwosComplement gmp 0 = [0] := rfl

theorem exportTwosComplement_of_pos {number : Int} (positive : 0 < number) :
    exportTwosComplement gmp number = 0 :: BigEndian.ofNat number.natAbs := by
  have sign : number.sign = 1 := Int.sign_eq_one_of_pos positive
  have size : 0 < number.natAbs.size := Nat.size_pos.mpr (by omega)
  simp only [exportTwosComplement, sign, gmp.export_eq, gmp.sizeinbase_two]
  rw [if_neg (by decide), if_neg (by decide)]
  apply List.take_of_length_le
  rw [List.length_cons, BigEndian.length_ofNat]
  omega

/-! The lowest set bit of a negative number is the one of its magnitude, and the
scan finds it. -/

private theorem mpzScan1_neg {k q : Nat} (odd : q % 2 = 1) :
    gmp.mpzScan1 (-(2 ^ k * q : Nat)) 0 = k := by
  apply gmp.scan1_eq _ _ _ (Nat.zero_le k)
  · have quotient : (-(2 ^ k * q : Nat) : Int) / 2 ^ k = -q := by
      push_cast
      rw [← mul_neg, Int.mul_ediv_cancel_left _ (by positivity)]
    rw [mpzBit, quotient]
    omega
  · intro i _ before bit
    obtain ⟨j, rfl⟩ : ∃ j, k = i + (j + 1) := ⟨k - i - 1, by omega⟩
    have quotient : (-(2 ^ (i + (j + 1)) * q : Nat) : Int) / 2 ^ i =
        2 * -(2 ^ j * q) := by
      push_cast
      rw [show (-(2 ^ (i + (j + 1)) * q) : Int) = 2 ^ i * (2 * -(2 ^ j * q)) by ring,
        Int.mul_ediv_cancel_left _ (by positivity)]
    rw [mpzBit, quotient] at bit
    omega

/-- The scan condition of the negative branch, on the magnitude `2 ^ a * q`:
the number of whole bytes below the top bit, less one bit, is `a`. -/
private theorem scan_fires_iff {a q : Nat} (odd : q % 2 = 1) :
    (a : Int) = 8 * (((2 ^ a * q).size / 8 + 1 : Nat) - 1 : Int) - 1 ↔
      ∃ k, a = 8 * k + 7 ∧ q ≤ 255 := by
  have low : a < (2 ^ a * q).size :=
    Nat.lt_size.mpr (Nat.le_mul_of_pos_right _ (by omega))
  constructor
  · intro fires
    refine ⟨(2 ^ a * q).size / 8 - 1, by omega, ?_⟩
    have high : 2 ^ a * q < 2 ^ (a + 8) := Nat.size_le.mp (by omega)
    rw [pow_add, mul_comm, mul_comm (2 ^ a)] at high
    have := Nat.lt_of_mul_lt_mul_right high
    omega
  · rintro ⟨k, rfl, bound⟩
    have high : (2 ^ (8 * k + 7) * q).size ≤ 8 * k + 7 + 8 := by
      rw [Nat.size_le, pow_add 2 (8 * k + 7) 8]
      exact Nat.mul_lt_mul_of_pos_left (by omega) (by positivity)
    omega

theorem exportTwosComplement_of_neg {a q : Nat} (odd : q % 2 = 1) :
    (∃ k, a = 8 * k + 7 ∧ q ≤ 255 ∧ exportTwosComplement gmp (-(2 ^ a * q : Nat)) =
      BigEndian.ofNat (-(2 ^ a * q : Nat) + 2 ^ (8 * (k + 1)) : Int).natAbs) ∨
    ((∀ k, a = 8 * k + 7 → 255 < q) ∧ exportTwosComplement gmp (-(2 ^ a * q : Nat)) =
      BigEndian.ofNat (-(2 ^ a * q : Nat) +
        2 ^ (8 * ((2 ^ a * q).size / 8 + 1)) : Int).natAbs) := by
  have positive : 0 < 2 ^ a * q := Nat.mul_pos (by positivity) (by omega)
  have sign : (-(2 ^ a * q : Nat) : Int).sign = -1 :=
    Int.sign_eq_neg_one_of_neg (by omega)
  have bits : gmp.mpzSizeinbase (-(2 ^ a * q : Nat)) 2 = (2 ^ a * q).size := by
    rw [gmp.sizeinbase_two, Int.natAbs_neg, Int.natAbs_natCast]
    exact Nat.max_eq_right (Nat.size_pos.mpr positive)
  have fires := scan_fires_iff (a := a) odd
  simp only [exportTwosComplement, sign, bits, mpzScan1_neg gmp odd, gmp.export_eq]
  simp only [show ¬ (-1 : Int) = 0 by decide, if_false, if_true]
  by_cases scan : ∃ k, a = 8 * k + 7 ∧ q ≤ 255
  · left
    obtain ⟨k, exponent, bound⟩ := scan
    have count : (2 ^ a * q).size / 8 + 1 - 1 = k + 1 := by
      have := fires.mpr ⟨k, exponent, bound⟩
      omega
    refine ⟨k, exponent, bound, ?_⟩
    rw [if_pos (fires.mpr ⟨k, exponent, bound⟩), count]
  · right
    refine ⟨fun k exponent => ?_, ?_⟩
    · by_contra bound
      exact scan ⟨k, exponent, by omega⟩
    · rw [if_neg (mt fires.mp scan)]

/-- The buffer of a negative number that keeps the byte count of its magnitude's
length: the two's complement in that many bytes. -/
theorem toInt_export_of_lt {m k : Nat} (low : 0 < m) (high : m ≤ 128 * 256 ^ k) :
    TwosComplement.toInt
      (BigEndian.ofNat (-(m : Int) + 2 ^ (8 * (k + 1))).natAbs) = -(m : Int) ∧
    (BigEndian.ofNat (-(m : Int) + 2 ^ (8 * (k + 1))).natAbs).length = k + 1 := by
  have pow : (2 : Int) ^ (8 * (k + 1)) = (256 ^ (k + 1) : Nat) := by
    push_cast
    rw [pow_mul]
    norm_num
  have split : 256 ^ (k + 1) = 256 * 256 ^ k := by ring
  have natAbs : (-(m : Int) + 2 ^ (8 * (k + 1))).natAbs = 256 ^ (k + 1) - m := by
    rw [pow]
    omega
  rw [natAbs]
  obtain ⟨length, value⟩ := TwosComplement.toInt_ofNat_of_top_bit
    (n := 256 ^ (k + 1) - m) (k := k) (by omega) (by omega)
  refine ⟨?_, length⟩
  rw [value]
  push_cast [Nat.cast_sub (show m ≤ 256 ^ (k + 1) by omega)]
  ring

private theorem odd_part_of_power {a b q : Nat} (odd : q % 2 = 1)
    (power : 2 ^ a * q = 2 ^ b) : a = b ∧ q = 1 := by
  have le : a ≤ b := by
    rw [← Nat.pow_le_pow_iff_right (show 1 < 2 by decide), ← power]
    exact Nat.le_mul_of_pos_right _ (by omega)
  obtain ⟨d, rfl⟩ := Nat.exists_eq_add_of_le le
  rw [pow_add] at power
  have part : q = 2 ^ d := Nat.eq_of_mul_eq_mul_left (by positivity) power
  cases d with
  | zero => exact ⟨rfl, part⟩
  | succ d =>
      rw [part, pow_succ] at odd
      omega

/-- Away from the mistaken scans a negative number is exported in the fewest
bytes that hold it. -/
theorem exportTwosComplement_neg_fits {number : Int} (negative : number < 0)
    (apart : ¬ ScanMistakes number) :
    ∃ k, TwosComplement.toInt (exportTwosComplement gmp number) = number ∧
      (exportTwosComplement gmp number).length = k + 1 ∧
      ∀ j, k = j + 1 → number < -(128 * 256 ^ j) := by
  obtain ⟨a, q, oddQ, magnitude⟩ :=
    Nat.exists_eq_two_pow_mul_odd (n := number.natAbs) (by omega)
  have odd : q % 2 = 1 := Nat.odd_iff.mp oddQ
  obtain rfl : number = -(2 ^ a * q : Nat) := by omega
  have positive : 0 < 2 ^ a * q := by omega
  rcases exportTwosComplement_of_neg gmp (a := a) odd with
    ⟨k, rfl, bound, exported⟩ | ⟨scan, exported⟩
  · have unit : q = 1 := by
      by_contra other
      apply apart
      refine ⟨k, q, odd, by omega, bound, ?_⟩
      rw [TwosComplement.two_pow_eq]
      push_cast
      ring
    subst unit
    have power : 2 ^ (8 * k + 7) * 1 = 128 * 256 ^ k := by
      rw [mul_one, TwosComplement.two_pow_eq]
    obtain ⟨value, length⟩ := toInt_export_of_lt (k := k) positive (by omega)
    rw [exported]
    refine ⟨k, value, length, ?_⟩
    rintro j rfl
    rw [power, pow_succ]
    have : 0 < 256 ^ j := by positivity
    push_cast
    zify at this
    linarith
  · have high : 2 ^ a * q ≤ 128 * 256 ^ ((2 ^ a * q).size / 8) := by
      apply Nat.le_of_lt
      rw [← TwosComplement.two_pow_eq, ← Nat.size_le]
      omega
    obtain ⟨value, length⟩ := toInt_export_of_lt positive high
    rw [exported]
    refine ⟨_, value, length, ?_⟩
    intro j count
    have low : 128 * 256 ^ j ≤ 2 ^ a * q := by
      rw [← TwosComplement.two_pow_eq, ← Nat.lt_size]
      omega
    have other : 2 ^ a * q ≠ 128 * 256 ^ j := by
      rw [← TwosComplement.two_pow_eq]
      intro power
      obtain ⟨exponent, unit⟩ := odd_part_of_power odd power
      have := scan j exponent
      omega
    zify at low other
    push_cast
    omega

private theorem pow_eq_mul_pow {L k r : Nat} (equation : 256 ^ L = r * 256 ^ k)
    (low : 2 ≤ r) (high : r < 256) : False := by
  rcases Nat.lt_or_ge k L with more | less
  · obtain ⟨d, rfl⟩ := Nat.exists_eq_add_of_lt more
    rw [show k + d + 1 = (d + 1) + k by omega, pow_add] at equation
    have factor := Nat.eq_of_mul_eq_mul_right (by positivity) equation
    have : 256 ^ 1 ≤ 256 ^ (d + 1) := Nat.pow_le_pow_right (by decide) (by omega)
    omega
  · have : 256 ^ L ≤ 256 ^ k := Nat.pow_le_pow_right (by decide) less
    have : 0 < 256 ^ k := by positivity
    nlinarith

/-- On a mistaken scan the sum stays negative, its magnitude is exported, and no
reading of that magnitude gives the number back. -/
theorem exportTwosComplement_scanMistakes {number : Int}
    (mistakes : ScanMistakes number) :
    TwosComplement.toInt (exportTwosComplement gmp number) ≠ number := by
  obtain ⟨k, q, odd, low, high, rfl⟩ := mistakes
  have magnitude : (-(q * (128 * 256 ^ k)) : Int) = -(2 ^ (8 * k + 7) * q : Nat) := by
    rw [TwosComplement.two_pow_eq]
    push_cast
    ring
  rw [magnitude]
  rcases exportTwosComplement_of_neg gmp (a := 8 * k + 7) odd with
    ⟨j, exponent, _, exported⟩ | ⟨scan, _⟩
  · obtain rfl : j = k := by omega
    obtain ⟨r, rfl⟩ : ∃ r, q = r + 2 := ⟨q - 2, by omega⟩
    have modulus : (2 : Int) ^ (8 * (j + 1)) = 256 * 256 ^ j := by
      rw [pow_mul, pow_succ]
      norm_num
      ring
    have sum : (-(2 ^ (8 * j + 7) * (r + 2) : Nat) + 2 ^ (8 * (j + 1)) : Int) =
        -(r * (128 * 256 ^ j) : Nat) := by
      rw [TwosComplement.two_pow_eq, modulus]
      push_cast
      ring
    rw [exported, sum, Int.natAbs_neg, Int.natAbs_natCast, TwosComplement.two_pow_eq]
    have positive : 0 < 128 * 256 ^ j * (r + 2) := by positivity
    intro same
    cases sign : TwosComplement.signBit (BigEndian.ofNat (r * (128 * 256 ^ j))) with
    | false =>
        rw [TwosComplement.toInt_of_not_signBit sign] at same
        omega
    | true =>
        rw [TwosComplement.toInt_of_signBit sign, BigEndian.toNat_ofNat] at same
        apply pow_eq_mul_pow (L := (BigEndian.ofNat (r * (128 * 256 ^ j))).length)
          (k := j + 1) (r := r + 1) _ (by omega) (by omega)
        zify
        push_cast at same
        rw [pow_succ]
        linarith
  · have := scan k rfl
    omega

private theorem exportTwosComplement_of_nonneg {number : Int} (nonneg : 0 ≤ number) :
    exportTwosComplement gmp number ≠ [] ∧
      TwosComplement.toInt (exportTwosComplement gmp number) = number := by
  rcases nonneg.eq_or_lt with rfl | positive
  · exact ⟨by simp [exportTwosComplement_zero], by rw [exportTwosComplement_zero]; rfl⟩
  · rw [exportTwosComplement_of_pos gmp positive, TwosComplement.toInt_zero_cons,
      BigEndian.toNat_ofNat]
    exact ⟨by simp, by omega⟩

theorem toInt_exportTwosComplement {number : Int} (apart : ¬ ScanMistakes number) :
    exportTwosComplement gmp number ≠ [] ∧
      TwosComplement.toInt (exportTwosComplement gmp number) = number := by
  rcases lt_or_ge number 0 with negative | nonneg
  · obtain ⟨k, value, length, _⟩ := exportTwosComplement_neg_fits gmp negative apart
    exact ⟨List.ne_nil_of_length_eq_add_one length, value⟩
  · exact exportTwosComplement_of_nonneg gmp nonneg

/-- Every non-empty byte string is read as the number it denotes, and a number
comes back from its exported bytes exactly when its scan makes no mistake. -/
theorem import_export_twosComplement_iff :
    (∀ bytes, bytes ≠ [] →
      importTwosComplement gmp bytes = some (TwosComplement.toInt bytes)) ∧
    ∀ number, (exportTwosComplement gmp number ≠ [] ∧
      importTwosComplement gmp (exportTwosComplement gmp number) = some number) ↔
        ¬ ScanMistakes number := by
  refine ⟨fun bytes => importTwosComplement_eq gmp, fun number => ⟨?_, ?_⟩⟩
  · rintro ⟨nonempty, roundTrip⟩ mistakes
    rw [importTwosComplement_eq gmp nonempty] at roundTrip
    exact exportTwosComplement_scanMistakes gmp mistakes (Option.some.inj roundTrip)
  · intro apart
    obtain ⟨nonempty, value⟩ := toInt_exportTwosComplement gmp apart
    exact ⟨nonempty, by rw [importTwosComplement_eq gmp nonempty, value]⟩

theorem import_export_twosComplement_positive_byte :
    importTwosComplement Gmp.reference [1] = some 1 ∧
      importTwosComplement Gmp.reference (exportTwosComplement Gmp.reference (-129)) =
        some (-129) := by
  refine ⟨?_, ?_⟩
  · exact (import_export_twosComplement_iff Gmp.reference).1 [1] (by decide)
  · refine (((import_export_twosComplement_iff Gmp.reference).2 (-129)).mpr ?_).2
    exact mt ScanMistakes.dvd (by decide)

theorem export_minus_384_comes_back_as_minus_128 :
    exportTwosComplement Gmp.reference (-384) = [0x80] ∧
      importTwosComplement Gmp.reference [0x80] = some (-128) ∧
      importTwosComplement Gmp.reference (exportTwosComplement Gmp.reference (-384)) ≠
        some (-384) := by
  decide +kernel

/-! Canonical bytes. A positive number always gets a leading zero byte, needed
or not; the other numbers get their shortest encoding. -/

theorem minimal_exportTwosComplement_of_neg {number : Int} (negative : number < 0)
    (apart : ¬ ScanMistakes number) :
    TwosComplement.Minimal (exportTwosComplement gmp number) := by
  obtain ⟨k, value, length, needs⟩ := exportTwosComplement_neg_fits gmp negative apart
  cases k with
  | zero =>
      obtain ⟨byte, single⟩ := List.length_eq_one_iff.mp length
      rw [single]
      trivial
  | succ k =>
      apply TwosComplement.minimal_of_not_fits length
      rw [value]
      exact Or.inl (needs k rfl)

theorem minimal_zero_cons_iff {bytes : List UInt8} (head : bytes.head? ≠ some 0)
    (nonempty : bytes ≠ []) :
    TwosComplement.Minimal (0 :: bytes) ↔ TwosComplement.signBit bytes = true := by
  cases bytes with
  | nil => exact absurd rfl nonempty
  | cons byte rest => simp [TwosComplement.Minimal, TwosComplement.signBit]

private theorem ofNat_natAbs_toInt {bytes : List UInt8}
    (positive : 0 < TwosComplement.toInt bytes) :
    (TwosComplement.toInt bytes).natAbs = BigEndian.toNat bytes := by
  cases sign : TwosComplement.signBit bytes with
  | true =>
      have := TwosComplement.toInt_neg_iff.mpr sign
      omega
  | false =>
      rw [TwosComplement.toInt_of_not_signBit sign, Int.natAbs_natCast]

theorem exportTwosComplement_toInt_of_pos {bytes : List UInt8}
    (minimal : TwosComplement.Minimal bytes) (positive : 0 < TwosComplement.toInt bytes) :
    exportTwosComplement gmp (TwosComplement.toInt bytes) =
      if bytes.head? = some 0 then bytes else 0 :: bytes := by
  rw [exportTwosComplement_of_pos gmp positive, ofNat_natAbs_toInt positive]
  split
  · rename_i zero
    obtain ⟨rest, rfl⟩ : ∃ rest, bytes = 0 :: rest := List.head?_eq_some_iff.mp zero
    cases rest with
    | nil => exact absurd positive (by decide)
    | cons second rest =>
        rw [BigEndian.toNat_zero_cons, BigEndian.ofNat_toNat]
        intro same
        obtain rfl : second = 0 := by simpa using same
        exact minimal.1 ⟨rfl, by decide⟩
  · rename_i nonzero
    rw [BigEndian.ofNat_toNat nonzero]

/-- A minimal encoding comes back byte for byte when it denotes zero or a
negative number whose scan makes no mistake; a positive one comes back behind
a zero byte unless it has one already. -/
theorem export_import_twosComplement_canonical :
    (∀ bytes, TwosComplement.Minimal bytes →
      ∃ number, importTwosComplement gmp bytes = some number ∧
        (number = 0 → exportTwosComplement gmp number = bytes) ∧
        (number < 0 → ¬ ScanMistakes number → exportTwosComplement gmp number = bytes) ∧
        (0 < number → exportTwosComplement gmp number =
          if bytes.head? = some 0 then bytes else 0 :: bytes)) ∧
    ∀ number, ¬ ScanMistakes number →
      (TwosComplement.Minimal (exportTwosComplement gmp number) ↔
        number ≤ 0 ∨ TwosComplement.signBit (BigEndian.ofNat number.natAbs) = true) := by
  constructor
  · intro bytes minimal
    refine ⟨_, importTwosComplement_eq gmp minimal.ne_nil, ?_, ?_, ?_⟩
    · intro zero
      rw [zero, exportTwosComplement_zero]
      exact TwosComplement.Minimal.eq_of_toInt_eq trivial minimal zero.symm
    · intro negative apart
      exact (minimal_exportTwosComplement_of_neg gmp negative apart).eq_of_toInt_eq minimal
        (toInt_exportTwosComplement gmp apart).2
    · exact exportTwosComplement_toInt_of_pos gmp minimal
  · intro number apart
    rcases Int.lt_trichotomy number 0 with negative | rfl | positive
    · simp [minimal_exportTwosComplement_of_neg gmp negative apart, negative.le]
    · simp [exportTwosComplement_zero, TwosComplement.Minimal]
    · rw [exportTwosComplement_of_pos gmp positive, minimal_zero_cons_iff
        (BigEndian.head?_ofNat_ne_zero _) (mt BigEndian.ofNat_eq_nil_iff.mp (by omega))]
      simp [positive]

theorem export_import_twosComplement_single_bytes :
    exportTwosComplement Gmp.reference (-1) = [0xff] ∧
      exportTwosComplement Gmp.reference 255 = [0x00, 0xff] := by
  have canonical := (export_import_twosComplement_canonical Gmp.reference).1
  obtain ⟨number, imported, _, negative, _⟩ := canonical [0xff] (by decide)
  obtain ⟨other, otherImported, _, _, positive⟩ := canonical [0x00, 0xff] (by decide)
  have minusOne : importTwosComplement Gmp.reference [0xff] = some (-1) := by decide +kernel
  have top : importTwosComplement Gmp.reference [0x00, 0xff] = some 255 := by decide +kernel
  obtain rfl : number = -1 := by simpa [minusOne] using imported.symm
  obtain rfl : other = 255 := by simpa [top] using otherImported.symm
  exact ⟨negative (by decide) (mt ScanMistakes.dvd (by decide)), positive (by decide)⟩

theorem export_import_one_gains_a_zero_byte :
    TwosComplement.Minimal [0x01] ∧
      importTwosComplement Gmp.reference [0x01] = some 1 ∧
      exportTwosComplement Gmp.reference 1 = [0x00, 0x01] ∧
      exportTwosComplement Gmp.reference 1 ≠ [0x01] := by
  decide +kernel

end PhpDriver
