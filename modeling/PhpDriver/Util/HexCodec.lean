import Mathlib.Tactic.IntervalCases
import PhpDriver.Util.ColumnType

namespace PhpDriver

/-! `php_driver_bytes_to_hex` of `util/bytes.c`, which shows bytes, and the other way
`php_driver_from_hex` of `util/types.c`. -/

def hexStr : List UInt8 :=
  ascii "0123456789abcdef"

/-- `hex_str[(c >> shift) & 0x0F]`. A `char` is signed and shifted as an `int`. -/
def hexChar (c : UInt8) (shift : Nat) : UInt8 :=
  hexStr.getD (((c.toBitVec.signExtend 32).sshiftRight shift) &&& 0x0F).toNat 0

def hexChars (bin : List UInt8) : List UInt8 :=
  bin.flatMap fun c => [hexChar c 4, hexChar c 0]

/-- The buffer in front of its terminator. `none` stands for undefined behaviour: a length
below zero, a length behind the bytes, or the overflow of an `int`. -/
def bytesToHex (bin : List UInt8) (len : BitVec 32) : Option (List UInt8) :=
  if len.toInt < 0 ∨ bin.length < len.toInt ∨ 2 ^ 31 ≤ len.toInt * 2 + 3 then none
  else some (ascii "0x" ++ hexChars (bin.take len.toNat))

/-- `Blob::bytes`, which narrows the size of its data to an `int`. -/
def blobBytes (data : List UInt8) : Option (List UInt8) :=
  bytesToHex data (BitVec.ofNat 32 data.length)

def isHexDigit (c : UInt8) : Bool :=
  c ∈ ascii "0123456789ABCDEFabcdef"

def lowerCase (c : UInt8) : UInt8 :=
  if 65 ≤ c ∧ c ≤ 90 then c + 32 else c

def IsHex (hex : List UInt8) : Prop :=
  hex.length % 2 = 0 ∧ ∀ c ∈ hex, isHexDigit c

def ReadsBack (bytes : List UInt8) : Prop :=
  ∃ hex, blobBytes bytes = some (ascii "0x" ++ hex) ∧ fromHex hex = some bytes

/-- Strings of pairs of digits are read, no others, and shown again in lower case. -/
structure DecodesHex (hex : List UInt8) : Prop where
  isSome_iff : (fromHex hex).isSome ↔ IsHex hex
  shown : ∀ bytes, fromHex hex = some bytes →
    blobBytes bytes = some (ascii "0x" ++ hex.map lowerCase)

theorem forall_byte {holds : UInt8 → Prop} (each : ∀ index : Fin 256, holds (UInt8.ofFin index))
    (c : UInt8) : holds c :=
  each c.toFin

theorem nibble_eq (c : UInt8) (shift : Nat) :
    ((((c.toBitVec.signExtend 32).sshiftRight shift) &&& 0x0F).toNat : Int) =
      c.toBitVec.toInt / 2 ^ shift % 16 := by
  have shifted := @BitVec.toInt_sshiftRight 32 (c.toBitVec.signExtend 32) shift
  rw [BitVec.toInt_signExtend_of_le (by decide), Int.shiftRight_eq_div_pow] at shifted
  have masked (bits : BitVec 32) : ((bits &&& 0x0F).toNat : Int) = bits.toInt % 16 := by
    have low : (bits &&& 0x0F).toNat = bits.toNat % 16 := by
      rw [BitVec.toNat_and]
      exact Nat.and_two_pow_sub_one_eq_mod _ 4
    rw [low, BitVec.toInt_eq_toNat_bmod, Int.bmod_def]
    split <;> omega
  rw [masked, shifted, Nat.cast_pow, Nat.cast_ofNat]

/-- The sign of the byte is masked away. -/
theorem hexChar_high (c : UInt8) : hexChar c 4 = hexStr.getD (c.toNat / 16) 0 := by
  have nibble := nibble_eq c 4
  have bound := c.toNat_lt
  rw [BitVec.toInt_eq_toNat_bmod, Int.bmod_def, UInt8.toNat_toBitVec] at nibble
  rw [hexChar]
  congr 1
  split at nibble <;> omega

theorem hexChar_low (c : UInt8) : hexChar c 0 = hexStr.getD (c.toNat % 16) 0 := by
  have nibble := nibble_eq c 0
  rw [BitVec.toInt_eq_toNat_bmod, Int.bmod_def, UInt8.toNat_toBitVec] at nibble
  rw [hexChar]
  congr 1
  split at nibble <;> omega

theorem hexStr_eq : hexStr =
    [48, 49, 50, 51, 52, 53, 54, 55, 56, 57, 97, 98, 99, 100, 101, 102] :=
  rfl

theorem hexValue_digit {half : Nat} (small : half < 16) :
    hexValue (hexStr.getD half 0) = some half := by
  rw [hexStr_eq]
  interval_cases half <;> rfl

theorem isSome_hexValue (c : UInt8) : (hexValue c).isSome = isHexDigit c := by
  have digits : ascii "0123456789ABCDEFabcdef" = [48, 49, 50, 51, 52, 53, 54, 55, 56, 57,
      65, 66, 67, 68, 69, 70, 97, 98, 99, 100, 101, 102] := rfl
  have range : (hexValue c).isSome ↔ 48 ≤ c.toNat ∧ c.toNat ≤ 57 ∨
      65 ≤ c.toNat ∧ c.toNat ≤ 70 ∨ 97 ≤ c.toNat ∧ c.toNat ≤ 102 := by
    grind [hexValue]
  rw [Bool.eq_iff_iff, range, isHexDigit, digits, decide_eq_true_iff]
  simp only [List.mem_cons, List.not_mem_nil, or_false, ← UInt8.toNat_inj, UInt8.reduceToNat]
  omega

theorem digit_of_hexValue {c : UInt8} {half : Nat} (read : hexValue c = some half) :
    half < 16 ∧ hexStr.getD half 0 = lowerCase c := by
  rw [hexStr_eq]
  have each (c : UInt8) : (hexValue c).all
      (fun half => half < 16 &&
        [48, 49, 50, 51, 52, 53, 54, 55, 56, 57, 97, 98, 99, 100, 101, 102].getD half 0 ==
          lowerCase c) = true := by
    revert c
    apply forall_byte
    decide +kernel
  simpa [read] using each c

theorem byte_of_halves {half0 half1 : Nat} (high : half0 < 16) (low : half1 < 16) :
    (UInt8.ofNat (16 * half0 + half1)).toNat = 16 * half0 + half1 := by
  rw [UInt8.toNat_ofNat', Nat.mod_eq_of_lt]
  omega

@[simp] theorem hexChars_nil : hexChars [] = [] := rfl

theorem hexChars_cons (c : UInt8) (bin : List UInt8) :
    hexChars (c :: bin) = hexChar c 4 :: hexChar c 0 :: hexChars bin := rfl

theorem length_hexChars (bin : List UInt8) : (hexChars bin).length = 2 * bin.length := by
  induction bin with
  | nil => rfl
  | cons c bin ih =>
      rw [hexChars_cons, List.length_cons, List.length_cons, ih, List.length_cons]
      omega

theorem fromHex_cons_cons_iff {first second : UInt8} {rest bytes : List UInt8} :
    fromHex (first :: second :: rest) = some bytes ↔
      ∃ half0 half1 result, hexValue first = some half0 ∧ hexValue second = some half1 ∧
        fromHex rest = some result ∧ UInt8.ofNat (16 * half0 + half1) :: result = bytes := by
  rw [fromHex]
  cases hexValue first with
  | none => simp
  | some half0 =>
      cases hexValue second with
      | none => simp
      | some half1 => cases fromHex rest <;> simp

theorem fromHex_hexChars (bin : List UInt8) : fromHex (hexChars bin) = some bin := by
  induction bin with
  | nil => rfl
  | cons c bin ih =>
      have high : c.toNat / 16 < 16 := Nat.div_lt_of_lt_mul c.toNat_lt
      have low : c.toNat % 16 < 16 := Nat.mod_lt _ (by decide)
      rw [hexChars_cons, hexChar_high, hexChar_low, fromHex_cons_cons_iff]
      exact ⟨_, _, bin, hexValue_digit high, hexValue_digit low, ih, by simp [Nat.div_add_mod]⟩

theorem hexChars_of_fromHex : {hex bytes : List UInt8} → fromHex hex = some bytes →
    hexChars bytes = hex.map lowerCase
  | [], bytes, read => by
      obtain rfl := Option.some.inj read
      rfl
  | [_], _, read => by cases read
  | first :: second :: rest, bytes, read => by
      obtain ⟨half0, half1, result, high, low, others, rfl⟩ := fromHex_cons_cons_iff.mp read
      obtain ⟨highSmall, highDigit⟩ := digit_of_hexValue high
      obtain ⟨lowSmall, lowDigit⟩ := digit_of_hexValue low
      have upper : (16 * half0 + half1) / 16 = half0 := by omega
      have lower : (16 * half0 + half1) % 16 = half1 := by omega
      rw [hexChars_cons, hexChar_high, hexChar_low, byte_of_halves highSmall lowSmall, upper,
        lower, highDigit, lowDigit, hexChars_of_fromHex others, List.map_cons, List.map_cons]

theorem isHex_cons_cons_iff {first second : UInt8} {rest : List UInt8} :
    IsHex (first :: second :: rest) ↔ isHexDigit first ∧ isHexDigit second ∧ IsHex rest := by
  have parity : (first :: second :: rest).length % 2 = rest.length % 2 := by
    rw [List.length_cons, List.length_cons]
    omega
  rw [IsHex, parity, List.forall_mem_cons, List.forall_mem_cons]
  exact ⟨fun ⟨even, high, low, each⟩ => ⟨high, low, even, each⟩,
    fun ⟨high, low, even, each⟩ => ⟨even, high, low, each⟩⟩

theorem isSome_fromHex_iff : (hex : List UInt8) → ((fromHex hex).isSome ↔ IsHex hex)
  | [] => iff_of_true rfl ⟨rfl, by simp⟩
  | [_] => iff_of_false Bool.false_ne_true (by simp [IsHex])
  | first :: second :: rest => by
      rw [isHex_cons_cons_iff, ← isSome_hexValue, ← isSome_hexValue, ← isSome_fromHex_iff rest]
      simp only [Option.isSome_iff_exists, fromHex_cons_cons_iff]
      constructor
      · rintro ⟨_, half0, half1, result, high, low, others, _⟩
        exact ⟨⟨half0, high⟩, ⟨half1, low⟩, result, others⟩
      · rintro ⟨⟨half0, high⟩, ⟨half1, low⟩, result, others⟩
        exact ⟨_, half0, half1, result, high, low, others, rfl⟩

/-! The `int` that counts the bytes. -/

theorem blobBytes_of_short {data : List UInt8} (short : data.length < 2 ^ 30 - 1) :
    blobBytes data = some (ascii "0x" ++ hexChars data) := by
  have len : (BitVec.ofNat 32 data.length).toNat = data.length := by
    rw [BitVec.toNat_ofNat, Nat.mod_eq_of_lt]
    omega
  have counted : (BitVec.ofNat 32 data.length).toInt = data.length := by
    rw [BitVec.toInt_eq_toNat_of_lt, len]
    omega
  rw [blobBytes, bytesToHex, counted, len, List.take_length, if_neg]
  omega

theorem length_of_fromHex {hex bytes : List UInt8} (read : fromHex hex = some bytes) :
    hex.length = 2 * bytes.length := by
  have shown := congrArg List.length (hexChars_of_fromHex read)
  rw [length_hexChars, List.length_map] at shown
  exact shown.symm

/-- Of the bytes that are too many for the `int`, fewer are shown or none. -/
theorem length_of_blobBytes {data hex : List UInt8} (long : 2 ^ 30 - 1 ≤ data.length)
    (shown : blobBytes data = some (ascii "0x" ++ hex)) : hex.length < 2 * data.length := by
  rw [blobBytes, bytesToHex] at shown
  split at shown
  · cases shown
  · rename_i counted
    have len := BitVec.toInt_eq_toNat_cond (BitVec.ofNat 32 data.length)
    have kept : (BitVec.ofNat 32 data.length).toNat < 2 ^ 30 - 1 := by
      omega
    rw [Option.some.injEq, List.append_cancel_left_eq] at shown
    rw [← shown, length_hexChars, List.length_take]
    omega

theorem readsBack_iff (bytes : List UInt8) : ReadsBack bytes ↔ bytes.length < 2 ^ 30 - 1 := by
  constructor
  · rintro ⟨hex, shown, read⟩
    by_contra long
    have fewer := length_of_blobBytes (Nat.le_of_not_lt long) shown
    exact absurd (length_of_fromHex read) fewer.ne
  · intro short
    exact ⟨hexChars bytes, blobBytes_of_short short, fromHex_hexChars bytes⟩

theorem decodesHex_iff (hex : List UInt8) :
    DecodesHex hex ↔ (IsHex hex → hex.length < 2 ^ 31 - 2) := by
  constructor
  · intro decodes isHex
    obtain ⟨bytes, read⟩ := Option.isSome_iff_exists.mp (decodes.isSome_iff.mpr isHex)
    by_contra long
    have length := length_of_fromHex read
    have fewer := length_of_blobBytes (by omega) (decodes.shown bytes read)
    rw [List.length_map] at fewer
    exact absurd length fewer.ne
  · intro short
    refine ⟨isSome_fromHex_iff hex, fun bytes read => ?_⟩
    have isHex := (isSome_fromHex_iff hex).mp (read ▸ rfl)
    have length := length_of_fromHex read
    have bound := short isHex
    rw [blobBytes_of_short (by omega), hexChars_of_fromHex read]

/-- Both directions, exactly as long as an `int` counts the digits and their `0x`. -/
theorem hex_codec_iff (bytes hex : List UInt8) :
    (ReadsBack bytes ↔ bytes.length < 2 ^ 30 - 1) ∧
      (DecodesHex hex ↔ (IsHex hex → hex.length < 2 ^ 31 - 2)) :=
  ⟨readsBack_iff bytes, decodesHex_iff hex⟩

theorem gibibyte_is_not_shown :
    blobBytes (List.replicate (2 ^ 30) 0) = none ∧ ¬ ReadsBack (List.replicate (2 ^ 30) 0) := by
  constructor
  · rw [blobBytes, bytesToHex, List.length_replicate]
    exact if_pos (by decide)
  · rw [readsBack_iff, List.length_replicate]
    decide

end PhpDriver
