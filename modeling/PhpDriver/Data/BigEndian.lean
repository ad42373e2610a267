import Mathlib.Data.Nat.Digits.Lemmas
import Mathlib.Data.Nat.Size
import Mathlib.Tactic.Linarith
import Mathlib.Tactic.Ring

namespace PhpDriver.Data.BigEndian

/-! Unsigned big-endian byte strings: the number a string denotes, and the
string without a leading zero byte that denotes a number. -/

def toNat (bytes : List UInt8) : Nat :=
  Nat.ofDigits 256 (bytes.reverse.map UInt8.toNat)

def ofNat (n : Nat) : List UInt8 :=
  ((Nat.digits 256 n).map UInt8.ofNat).reverse

@[simp] theorem toNat_nil : toNat [] = 0 := rfl

theorem toNat_append (left right : List UInt8) :
    toNat (left ++ right) = toNat left * 256 ^ right.length + toNat right := by
  simp only [toNat, List.reverse_append, List.map_append, Nat.ofDigits_append,
    List.length_map, List.length_reverse]
  ring

theorem toNat_cons (byte : UInt8) (rest : List UInt8) :
    toNat (byte :: rest) = byte.toNat * 256 ^ rest.length + toNat rest := by
  have happend := toNat_append [byte] rest
  simpa [toNat, Nat.ofDigits] using happend

@[simp] theorem toNat_zero_cons (rest : List UInt8) :
    toNat (0 :: rest) = toNat rest := by
  simp [toNat_cons]

theorem toNat_lt (bytes : List UInt8) : toNat bytes < 256 ^ bytes.length := by
  have hlt := Nat.ofDigits_lt_base_pow_length
    (b := 256) (l := bytes.reverse.map UInt8.toNat) (by decide) (by
      intro digit hdigit
      obtain ⟨byte, _, rfl⟩ := List.mem_map.mp hdigit
      exact byte.toNat_lt)
  simpa [toNat] using hlt

theorem toNat_inj_of_length {left right : List UInt8}
    (hlength : left.length = right.length)
    (hvalue : toNat left = toNat right) : left = right := by
  induction left generalizing right with
  | nil => exact (List.length_eq_zero_iff.mp hlength.symm).symm
  | cons byte rest ih =>
      cases right with
      | nil => simp at hlength
      | cons other tail =>
          have hlen : rest.length = tail.length := by simpa using hlength
          rw [toNat_cons, toNat_cons, hlen] at hvalue
          have hrest := toNat_lt rest
          have htail := toNat_lt tail
          rw [hlen] at hrest
          have hhead : byte.toNat = other.toNat := by
            rcases Nat.lt_trichotomy byte.toNat other.toNat with hlt | heq | hgt
            · nlinarith [Nat.mul_le_mul_right (256 ^ tail.length) hlt]
            · exact heq
            · nlinarith [Nat.mul_le_mul_right (256 ^ tail.length) hgt]
          have htailValue : toNat rest = toNat tail := by
            rw [hhead] at hvalue
            omega
          rw [UInt8.toNat_inj.mp hhead, ih hlen htailValue]

private theorem map_toNat_ofNat {digits : List Nat}
    (hbound : ∀ digit ∈ digits, digit < 256) :
    (digits.map UInt8.ofNat).map UInt8.toNat = digits := by
  rw [List.map_map]
  refine (List.map_congr_left fun digit hdigit => ?_).trans (List.map_id digits)
  have hlt := hbound digit hdigit
  simp [Nat.mod_eq_of_lt hlt]

@[simp] theorem toNat_ofNat (n : Nat) : toNat (ofNat n) = n := by
  simp only [toNat, ofNat, List.reverse_reverse]
  rw [map_toNat_ofNat fun digit hdigit => Nat.digits_lt_base (by decide) hdigit]
  exact Nat.ofDigits_digits 256 n

@[simp] theorem ofNat_zero : ofNat 0 = [] := by
  simp [ofNat]

theorem ofNat_eq_nil_iff {n : Nat} : ofNat n = [] ↔ n = 0 := by
  simp [ofNat, Nat.digits_eq_nil_iff_eq_zero]

/-- The shortest string has `k` bytes exactly when the number lies between the
`k`-th and the `k - 1`-st power of the base. -/
theorem length_ofNat_le_iff {n k : Nat} : (ofNat n).length ≤ k ↔ n < 256 ^ k := by
  simp only [ofNat, List.length_reverse, List.length_map]
  exact Nat.digits_length_le_iff (by decide) n

theorem lt_length_ofNat_iff {n k : Nat} : k < (ofNat n).length ↔ 256 ^ k ≤ n := by
  rw [← Nat.not_le, length_ofNat_le_iff, Nat.not_lt]

/-- The number of bytes is the number of bits rounded up to whole bytes. -/
theorem length_ofNat (n : Nat) : (ofNat n).length = (n.size + 7) / 8 := by
  have hpow (k : Nat) : (256 : Nat) ^ k = 2 ^ (8 * k) := by
    rw [Nat.pow_mul]
  apply Nat.le_antisymm
  · rw [length_ofNat_le_iff, hpow, ← Nat.size_le]
    omega
  · have hle := length_ofNat_le_iff.mp (Nat.le_refl (ofNat n).length)
    rw [hpow, ← Nat.size_le] at hle
    omega

/-- A string without a leading zero byte is the shortest string of its number. -/
theorem ofNat_toNat {bytes : List UInt8} (hhead : bytes.head? ≠ some 0) :
    ofNat (toNat bytes) = bytes := by
  have hmap : (bytes.reverse.map UInt8.toNat).map UInt8.ofNat = bytes.reverse := by
    rw [List.map_map]
    refine (List.map_congr_left fun byte _ => ?_).trans (List.map_id _)
    simp
  have hdigits : Nat.digits 256 (toNat bytes) = bytes.reverse.map UInt8.toNat := by
    apply Nat.digits_ofDigits 256 (by decide)
    · intro digit hdigit
      obtain ⟨byte, _, rfl⟩ := List.mem_map.mp hdigit
      exact byte.toNat_lt
    · intro hne
      cases bytes with
      | nil => simp at hne
      | cons byte rest =>
          simp only [List.reverse_cons, List.map_append, List.map_cons, List.map_nil,
            List.getLast_append_singleton]
          intro hzero
          exact hhead (congrArg some (UInt8.toNat_inj.mp hzero))
  rw [ofNat, hdigits, hmap, List.reverse_reverse]

theorem head?_ofNat_ne_zero (n : Nat) : (ofNat n).head? ≠ some 0 := by
  intro hhead
  cases hbytes : ofNat n with
  | nil => simp [hbytes] at hhead
  | cons byte rest =>
      rw [hbytes] at hhead
      obtain rfl : byte = 0 := by simpa using hhead
      have hlength := length_ofNat_le_iff (n := n) (k := rest.length)
      have hvalue : n = toNat rest := by
        rw [← toNat_ofNat n, hbytes, toNat_zero_cons]
      rw [hbytes] at hlength
      have := hlength.mpr (hvalue ▸ toNat_lt rest)
      simp at this

end PhpDriver.Data.BigEndian
