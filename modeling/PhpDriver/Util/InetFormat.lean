import PhpDriver.Data.HexText
import PhpDriver.Data.Joined
import PhpDriver.Util.InetAccepted

namespace PhpDriver

open Data Data.Joined

/-! `php_driver_format_address` of `util/inet.c`, and what the parser makes of its texts. -/

def groupText (high low : UInt8) : List UInt8 :=
  HexText.ofNat (high.toNat * 256 + low.toNat)

def octetText (octet : UInt8) : List UInt8 :=
  DecimalText.ofNat octet.toNat

def formatAddress (address : List UInt8) : List UInt8 :=
  if address.length > inetV4Length then
    joined ':'.toUInt8 ((List.range 8).map fun i =>
      groupText (address.getD (2 * i) 0) (address.getD (2 * i + 1) 0))
  else
    joined '.'.toUInt8 ((List.range 4).map fun i => octetText (address.getD i 0))

theorem isXDigit_hexDigit {digit : Nat} (small : digit < 16) :
    isXDigit (HexText.hexDigit digit) = true := by
  have all : ∀ digit < 16, isXDigit (HexText.hexDigit digit) = true := by decide
  exact all digit small

theorem xdigitValue_hexDigit : ∀ digit < 16, xdigitValue (HexText.hexDigit digit) = digit := by
  decide

theorem group_lt (high low : UInt8) : high.toNat * 256 + low.toNat < 16 ^ 4 := by
  have highBound := high.toNat_lt
  have lowBound := low.toNat_lt
  omega

theorem isGroup_groupText (high low : UInt8) : IsGroup (groupText high low) := by
  refine ⟨HexText.ofNat_ne_nil _, HexText.length_ofNat_le (group_lt high low) (by decide), ?_⟩
  intro char member
  obtain ⟨digit, small, rfl⟩ := HexText.mem_ofNat member
  exact isXDigit_hexDigit small

theorem hexNumber_groupText (high low : UInt8) :
    hexNumber (groupText high low) = high.toNat * 256 + low.toNat :=
  HexText.ofDigits_ofNat xdigitValue_hexDigit _

theorem groupBytes_groupText (high low : UInt8) :
    groupBytes (groupText high low) = [high, low] := by
  have lowBound := low.toNat_lt
  have highPart : (high.toNat * 256 + low.toNat) / 256 = high.toNat := by omega
  have lowPart : (high.toNat * 256 + low.toNat) % 256 = low.toNat := by omega
  rw [groupBytes, hexNumber_groupText, highPart, lowPart, UInt8.ofNat_toNat, UInt8.ofNat_toNat]

theorem joined_cons_cons (separator : UInt8) (text next : List UInt8) (texts : List (List UInt8)) :
    joined separator (text :: next :: texts) =
      text ++ separator :: joined separator (next :: texts) := by
  simp [joined, List.intercalate_cons_cons]

theorem fields_joined {pairs : List (UInt8 × UInt8)} (some : pairs ≠ []) :
    Fields (joined ':'.toUInt8 (pairs.map fun pair => groupText pair.1 pair.2))
      (pairs.flatMap fun pair => [pair.1, pair.2]) := by
  induction pairs with
  | nil => exact absurd rfl some
  | cons pair pairs ih =>
      have bytes := groupBytes_groupText pair.1 pair.2
      have isGroup := isGroup_groupText pair.1 pair.2
      rw [List.flatMap_cons, ← bytes]
      cases pairs with
      | nil =>
          have text : joined ':'.toUInt8 ([pair].map fun pair => groupText pair.1 pair.2) =
              groupText pair.1 pair.2 := by simp [joined]
          rw [text, List.flatMap_nil, List.append_nil]
          exact .last isGroup
      | cons next pairs =>
          rw [List.map_cons, List.map_cons, joined_cons_cons]
          exact .colon isGroup (ih (List.cons_ne_nil _ _))

theorem octets_joined {octets : List UInt8} (some : octets ≠ []) :
    Octets octets.length (joined '.'.toUInt8 (octets.map octetText)) octets := by
  induction octets with
  | nil => exact absurd rfl some
  | cons octet octets ih =>
      cases octets with
      | nil =>
          have text : joined '.'.toUInt8 ([octet].map octetText) = octetText octet := by
            simp [joined]
          rw [text]
          exact .last octet
      | cons next octets =>
          rw [List.map_cons, List.map_cons, joined_cons_cons]
          exact .dot octet (ih (List.cons_ne_nil _ _))

def IsInet (address : List UInt8) : Prop :=
  address.length = inetV4Length ∨ address.length = inetV6Length

theorem map_getD_range (address : List UInt8) :
    (List.range address.length).map (fun i => octetText (address.getD i 0)) =
      address.map octetText := by
  apply List.ext_getElem
  · simp
  · intro i inside _
    have bound : i < address.length := by simpa using inside
    simp [List.getD, bound]

theorem flatMap_getD_range {count : Nat} {address : List UInt8}
    (length : address.length = 2 * count) :
    (List.range count).flatMap (fun i => [address.getD (2 * i) 0, address.getD (2 * i + 1) 0]) =
      address := by
  induction count generalizing address with
  | zero => exact (List.length_eq_zero_iff.mp length).symm
  | succ count ih =>
      match address with
      | high :: low :: rest =>
          have shorter : rest.length = 2 * count := by
            simp only [List.length_cons] at length
            omega
          rw [List.range_succ_eq_map, List.flatMap_cons, List.flatMap_map]
          exact congrArg (fun tail => high :: low :: tail) (ih shorter)

theorem isAddress_formatAddress {address : List UInt8} (isInet : IsInet address) :
    IsAddress (formatAddress address) address := by
  rcases isInet with four | sixteen
  · have read := octets_joined (List.ne_nil_of_length_eq_add_one four)
    rw [← map_getD_range, four] at read
    rw [formatAddress, if_neg (by omega)]
    exact .ipv4 read
  · have pairs : (List.range 8).map (fun i =>
        (address.getD (2 * i) 0, address.getD (2 * i + 1) 0)) ≠ [] := by simp
    have read := fields_joined pairs
    rw [List.map_map, List.flatMap_map, flatMap_getD_range sixteen] at read
    rw [formatAddress, if_pos (by rw [sixteen]; decide)]
    exact .ipv6 read sixteen

/-! The text has no zero byte, so that it is read as a whole. -/

theorem ne_zero_of_isXDigit {char : UInt8} (digit : isXDigit char = true) : char ≠ 0 := by
  rintro rfl
  cases digit

theorem zero_notMem_formatAddress (address : List UInt8) : 0 ∉ formatAddress address := by
  intro member
  unfold formatAddress at member
  split at member
  · rcases mem_joined member with zero | ⟨text, textMember, member⟩
    · cases zero
    · obtain ⟨i, -, rfl⟩ := List.mem_map.mp textMember
      exact ne_zero_of_isXDigit ((isGroup_groupText _ _).digits 0 member) rfl
  · rcases mem_joined member with zero | ⟨text, textMember, member⟩
    · cases zero
    · obtain ⟨i, -, rfl⟩ := List.mem_map.mp textMember
      exact ne_zero_of_isXDigit ((isGroup_octet _).digits 0 member) rfl

/-- The text of an address is read back as the same address. -/
theorem parseIpAddress_formatAddress {address : List UInt8} (isInet : IsInet address) :
    parseIpAddress (formatAddress address) = .ok address := by
  have denotes := isAddress_formatAddress isInet
  have whole : cString (formatAddress address) = formatAddress address :=
    (cString_eq_self_iff _).mpr (zero_notMem_formatAddress address)
  have here : AddressParser.At (formatAddress address) [] none false (formatAddress address) {} :=
    ⟨rfl, rfl, rfl, rfl, rfl, by simp⟩
  rw [parseIpAddress, whole, if_neg (by have short := denotes.length_le; omega)]
  exact (AddressParser.loop_start_iff here rfl).mpr denotes.reads

theorem parseIpAddress_formatAddress_mapped :
    let address := List.replicate 10 0 ++ [255, 255, 127, 0, 0, 1]
    formatAddress address = "0:0:0:0:0:ffff:7f00:1".toUTF8.toList ∧
      parseIpAddress (formatAddress address) = .ok address :=
  ⟨by decide +kernel, parseIpAddress_formatAddress (.inr rfl)⟩

end PhpDriver
