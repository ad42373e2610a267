import Mathlib.Data.Nat.Digits.Lemmas

namespace PhpDriver.Data.HexText

/-! Hexadecimal digits in ASCII, in lower case. -/

def hexDigit (half : Nat) : UInt8 :=
  UInt8.ofNat (if half < 10 then 48 + half else 87 + half)

/-- The digits of a number, without leading zeros. -/
def ofNat (n : Nat) : List UInt8 :=
  if n = 0 then [hexDigit 0] else ((Nat.digits 16 n).map hexDigit).reverse

theorem ofNat_ne_nil (n : Nat) : ofNat n ≠ [] := by
  by_cases zero : n = 0
  · subst zero
    simp [ofNat]
  · simp [ofNat, zero, Nat.digits_ne_nil_iff_ne_zero]

theorem mem_ofNat {n : Nat} {char : UInt8} (member : char ∈ ofNat n) :
    ∃ digit < 16, char = hexDigit digit := by
  by_cases zero : n = 0
  · subst zero
    exact ⟨0, by decide, by simpa [ofNat] using member⟩
  · simp only [ofNat, zero, if_false, List.mem_reverse, List.mem_map] at member
    obtain ⟨digit, digitMember, rfl⟩ := member
    exact ⟨digit, Nat.digits_lt_base (by decide) digitMember, rfl⟩

theorem length_ofNat_le {n width : Nat} (bound : n < 16 ^ width) (some : 0 < width) :
    (ofNat n).length ≤ width := by
  by_cases zero : n = 0
  · subst zero
    exact some
  · simp only [ofNat, zero, if_false, List.length_reverse, List.length_map]
    exact (Nat.digits_length_le_iff (by decide) n).mpr bound

variable {value : UInt8 → Nat}

theorem ofDigits_ofNat (reads : ∀ digit < 16, value (hexDigit digit) = digit) (n : Nat) :
    Nat.ofDigits 16 ((ofNat n).reverse.map value) = n := by
  by_cases zero : n = 0
  · subst zero
    simp [ofNat, reads 0 (by decide)]
  · simp only [ofNat, zero, if_false, List.reverse_reverse]
    have same : ((Nat.digits 16 n).map hexDigit).map value = Nat.digits 16 n := by
      rw [List.map_map]
      refine (List.map_congr_left fun digit member => ?_).trans (List.map_id _)
      exact reads digit (Nat.digits_lt_base (by decide) member)
    rw [same]
    exact Nat.ofDigits_digits 16 n

end PhpDriver.Data.HexText
