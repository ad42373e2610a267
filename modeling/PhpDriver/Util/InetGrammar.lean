import PhpDriver.Util.Inet

namespace PhpDriver

open Data

/-! The textual forms of addresses. -/

structure IsGroup (text : List UInt8) : Prop where
  nonempty : text ≠ []
  short : text.length ≤ 4
  digits : ∀ char ∈ text, isXDigit char = true

def hexNumber (text : List UInt8) : Nat :=
  Nat.ofDigits 16 (text.reverse.map xdigitValue)

def groupBytes (text : List UInt8) : List UInt8 :=
  [UInt8.ofNat (hexNumber text / 256), UInt8.ofNat (hexNumber text % 256)]

/-- Decimal numbers below 256 without superfluous zeros, with dots between them. -/
inductive Octets : Nat → List UInt8 → List UInt8 → Prop
  | last (octet : UInt8) : Octets 1 (DecimalText.ofNat octet.toNat) [octet]
  | dot (octet : UInt8) {count : Nat} {text bytes : List UInt8} (rest : Octets count text bytes) :
      Octets (count + 1) (DecimalText.ofNat octet.toNat ++ '.'.toUInt8 :: text) (octet :: bytes)

inductive Groups : List UInt8 → List UInt8 → Prop
  | last {group : List UInt8} (isGroup : IsGroup group) : Groups group (groupBytes group)
  | colon {group text bytes : List UInt8} (isGroup : IsGroup group) (rest : Groups text bytes) :
      Groups (group ++ ':'.toUInt8 :: text) (groupBytes group ++ bytes)

/-- Groups, with a dotted quad for the last two of them or not. -/
inductive Fields : List UInt8 → List UInt8 → Prop
  | last {group : List UInt8} (isGroup : IsGroup group) : Fields group (groupBytes group)
  | quad {text bytes : List UInt8} (octets : Octets 4 text bytes) : Fields text bytes
  | colon {group text bytes : List UInt8} (isGroup : IsGroup group) (rest : Fields text bytes) :
      Fields (group ++ ':'.toUInt8 :: text) (groupBytes group ++ bytes)

def OrNothing (reads : List UInt8 → List UInt8 → Prop) (text bytes : List UInt8) : Prop :=
  text = [] ∧ bytes = [] ∨ reads text bytes

inductive IsAddress : List UInt8 → List UInt8 → Prop
  | ipv4 {text bytes : List UInt8} (octets : Octets 4 text bytes) : IsAddress text bytes
  | ipv6 {text bytes : List UInt8} (fields : Fields text bytes) (full : bytes.length = 16) :
      IsAddress text bytes
  /-- The two colons stand for at least one group of zeros. -/
  | compressed {left leftBytes right rightBytes : List UInt8}
      (before : OrNothing Groups left leftBytes) (after : OrNothing Fields right rightBytes)
      (missing : leftBytes.length + rightBytes.length ≤ 14) :
      IsAddress (left ++ ':'.toUInt8 :: ':'.toUInt8 :: right)
        (leftBytes ++ List.replicate (16 - (leftBytes.length + rightBytes.length)) 0 ++
          rightBytes)

theorem isXDigit_of_digit {char : UInt8} (digit : DecimalText.isDigit char = true) :
    isXDigit char = true := by
  simp [isXDigit, digit]

/-- What follows a number does not go on with it. -/
def Ends (rest : List UInt8) : Prop :=
  ∀ char ∈ rest.head?, isXDigit char = false

theorem Ends.nil : Ends [] := by
  simp [Ends]

theorem Ends.colon (rest : List UInt8) : Ends (':'.toUInt8 :: rest) := by
  intro char member
  obtain rfl := Option.some.inj member
  decide

theorem Ends.dot (rest : List UInt8) : Ends ('.'.toUInt8 :: rest) := by
  intro char member
  obtain rfl := Option.some.inj member
  decide

theorem numberOf_append {number rest : List UInt8} (short : number.length ≤ 4)
    (digits : ∀ char ∈ number, isXDigit char = true) (ends : Ends rest) :
    numberOf (number ++ rest) = number := by
  rw [numberOf, tokenMaxLen, List.take_append, List.take_of_length_le short,
    List.takeWhile_append_of_pos digits]
  cases rest with
  | nil => simp
  | cons char rest =>
      cases room : 4 - number.length with
      | zero => simp
      | succ room => simp [ends char rfl]

theorem numberOf_spec {address : List UInt8} {char : UInt8} (first : address.head? = some char)
    (digit : isXDigit char = true) :
    IsGroup (numberOf address) ∧ ∃ rest, address = numberOf address ++ rest := by
  cases address with
  | nil => cases first
  | cons head tail =>
      obtain rfl := Option.some.inj first
      refine ⟨⟨?_, ?_, ?_⟩, ?_⟩
      · simp [numberOf, tokenMaxLen, digit]
      · apply (List.takeWhile_sublist _).length_le.trans
        simp [tokenMaxLen]
      · exact fun char member => List.mem_takeWhile_imp member
      · have prefixed : numberOf (head :: tail) <+: head :: tail :=
          (List.takeWhile_prefix _).trans (List.take_prefix _ _)
        obtain ⟨rest, same⟩ := prefixed
        exact ⟨rest, same.symm⟩

theorem tolower_of_digit {char : UInt8} (digit : DecimalText.isDigit char = true) :
    tolower char = char := by
  simp only [DecimalText.isDigit, Bool.and_eq_true, decide_eq_true_eq] at digit
  rw [tolower, if_neg (by simp; omega)]

theorem map_tolower {number : List UInt8} (digits : DecimalText.AllDigits number) :
    number.map tolower = number := by
  conv_rhs => rw [← List.map_id number]
  apply List.map_congr_left
  intro char member
  exact tolower_of_digit (digits char member)

theorem xdigitValue_tolower (char : UInt8) :
    xdigitValue (tolower char) = xdigitValue char := by
  unfold tolower
  split
  · rename_i upper
    simp only [Bool.and_eq_true, decide_eq_true_eq] at upper
    have value : (char + 32).toNat = char.toNat + 32 := by
      rw [UInt8.toNat_add]
      simp
      omega
    simp only [xdigitValue, DecimalText.isDigit, value]
    grind
  · rfl

theorem scanHex_eq (number : List UInt8) : scanHex number = hexNumber number := by
  induction number using List.reverseRecOn with
  | nil => rfl
  | append_singleton number char ih =>
      rw [scanHex] at ih ⊢
      rw [List.foldl_concat, ih, hexNumber, hexNumber, List.reverse_concat, List.map_cons,
        Nat.ofDigits_cons]
      omega

theorem scanHex_map_tolower (number : List UInt8) :
    scanHex (number.map tolower) = hexNumber number := by
  rw [scanHex_eq, hexNumber, hexNumber, ← List.map_reverse, List.map_map]
  congr 1
  apply List.map_congr_left
  exact fun char _ => xdigitValue_tolower char

theorem isGroup_octet (octet : UInt8) : IsGroup (DecimalText.ofNat octet.toNat) := by
  refine ⟨DecimalText.ofNat_ne_nil _, ?_, ?_⟩
  · rw [DecimalText.length_ofNat_le_iff (by decide)]
    exact octet.toNat_lt.trans (by decide)
  · intro char member
    exact isXDigit_of_digit (DecimalText.allDigits_ofNat _ char member)

theorem octet_plain (octet : UInt8) (long : 1 < (DecimalText.ofNat octet.toNat).length) :
    (DecimalText.ofNat octet.toNat).head? ≠ some '0'.toUInt8 := by
  apply DecimalText.head?_ofNat_ne_zero
  intro zero
  rw [zero] at long
  exact absurd long (by decide)

theorem octet_of_number {number : List UInt8} (isGroup : IsGroup number)
    (digits : DecimalText.AllDigits number)
    (plain : ¬(1 < number.length ∧ number.head? = some '0'.toUInt8))
    (small : DecimalText.toNat number ≤ 255) :
    number = DecimalText.ofNat (UInt8.ofNat (DecimalText.toNat number)).toNat := by
  have value : (UInt8.ofNat (DecimalText.toNat number)).toNat = DecimalText.toNat number := by
    rw [UInt8.toNat_ofNat']
    omega
  rw [value]
  exact (DecimalText.ofNat_toNat digits isGroup.nonempty
    (fun long head => plain ⟨long, head⟩)).symm

theorem Octets.length {count : Nat} {text bytes : List UInt8} (octets : Octets count text bytes) :
    bytes.length = count ∧ text.length + 1 ≤ 4 * count := by
  induction octets with
  | last octet =>
      have short : (DecimalText.ofNat octet.toNat).length ≤ 3 :=
        (DecimalText.length_ofNat_le_iff (by decide)).mpr (octet.toNat_lt.trans (by decide))
      exact ⟨rfl, by omega⟩
  | dot octet rest ih =>
      have short : (DecimalText.ofNat octet.toNat).length ≤ 3 :=
        (DecimalText.length_ofNat_le_iff (by decide)).mpr (octet.toNat_lt.trans (by decide))
      simp only [List.length_cons, List.length_append, ih.1, true_and]
      omega

/-- What can follow where a field is expected, `count` bytes after the start: the text, its
bytes, where the two colons stand in the end, and whether the text ends with a dotted quad. -/
inductive ReadsFields :
    Option Nat → Nat → List UInt8 → List UInt8 → Option Nat → Bool → Prop
  | nothing (count : Nat) : ReadsFields (some count) count [] [] (some count) false
  | last (compress : Option Nat) (count : Nat) {group : List UInt8} (isGroup : IsGroup group) :
      ReadsFields compress count group (groupBytes group) compress false
  | quad (compress : Option Nat) (count : Nat) {text bytes : List UInt8}
      (octets : Octets 4 text bytes) : ReadsFields compress count text bytes compress true
  | colon {compress after : Option Nat} {count : Nat} {quad : Bool}
      {group text bytes : List UInt8} (isGroup : IsGroup group)
      (rest : ReadsFields compress (count + 2) text bytes after quad) (nonempty : text ≠ []) :
      ReadsFields compress count (group ++ ':'.toUInt8 :: text) (groupBytes group ++ bytes) after quad
  | double {after : Option Nat} {count : Nat} {quad : Bool} {group text bytes : List UInt8}
      (isGroup : IsGroup group)
      (rest : ReadsFields (some (count + 2)) (count + 2) text bytes after quad) :
      ReadsFields none count (group ++ ':'.toUInt8 :: ':'.toUInt8 :: text) (groupBytes group ++ bytes)
        after quad

def finishBytes (quad : Bool) (bytes : List UInt8) : Option Nat → Option (List UInt8)
  | none =>
      if quad ∧ bytes.length = 4 then some bytes
      else if bytes.length = 16 then some bytes
      else none
  | some count =>
      if bytes.length < 16 then
        some (bytes.take count ++ List.replicate (16 - bytes.length) 0 ++ bytes.drop count)
      else none

theorem Fields.reads {text bytes : List UInt8} (fields : Fields text bytes)
    (compress : Option Nat) (count : Nat) :
    text ≠ [] ∧ ∃ quad, ReadsFields compress count text bytes compress quad := by
  induction fields generalizing count with
  | last isGroup => exact ⟨isGroup.nonempty, false, .last compress count isGroup⟩
  | quad octets =>
      refine ⟨?_, true, .quad compress count octets⟩
      cases octets with
      | dot octet rest => simp
  | colon isGroup rest ih =>
      obtain ⟨nonempty, quad, reads⟩ := ih (count + 2)
      exact ⟨by simp, quad, .colon isGroup reads nonempty⟩

theorem Groups.reads {left leftBytes right rightBytes : List UInt8}
    (groups : Groups left leftBytes) {count : Nat} {after : Option Nat} {quad : Bool}
    (reads : ReadsFields (some (count + leftBytes.length)) (count + leftBytes.length) right rightBytes
      after quad) :
    ReadsFields none count (left ++ ':'.toUInt8 :: ':'.toUInt8 :: right) (leftBytes ++ rightBytes)
      after quad := by
  induction groups generalizing count with
  | last isGroup => exact .double isGroup reads
  | @colon group text bytes isGroup rest ih =>
      rw [List.append_assoc, List.append_assoc, List.cons_append]
      refine .colon isGroup (ih ?_) (by simp)
      have length : count + (groupBytes group ++ bytes).length = count + 2 + bytes.length := by
        simp [groupBytes]
        omega
      rw [← length]
      exact reads

theorem ReadsFields.after_colons {compress after : Option Nat} {count : Nat} {quad : Bool}
    {text bytes : List UInt8} (reads : ReadsFields compress count text bytes after quad)
    {place : Nat} (there : compress = some place) :
    after = some place ∧ OrNothing Fields text bytes := by
  induction reads with
  | nothing count =>
      obtain rfl := Option.some.inj there
      exact ⟨rfl, .inl ⟨rfl, rfl⟩⟩
  | last compress count isGroup => exact ⟨there, .inr (.last isGroup)⟩
  | quad compress count octets => exact ⟨there, .inr (.quad octets)⟩
  | colon isGroup rest nonempty ih =>
      obtain ⟨place, ⟨empty, _⟩ | fields⟩ := ih there
      · exact absurd empty nonempty
      · exact ⟨place, .inr (.colon isGroup fields)⟩
  | double isGroup rest ih => cases there

theorem ReadsFields.of_none {compress after : Option Nat} {count : Nat} {quad : Bool}
    {text bytes : List UInt8} (reads : ReadsFields compress count text bytes after quad)
    (without : compress = none) :
    after = none ∧ Fields text bytes ∧
        (quad = true → 4 ≤ bytes.length ∧ (bytes.length = 4 → Octets 4 text bytes)) ∨
      ∃ left leftBytes right rightBytes, text = left ++ ':'.toUInt8 :: ':'.toUInt8 :: right ∧
        bytes = leftBytes ++ rightBytes ∧ after = some (count + leftBytes.length) ∧
        Groups left leftBytes ∧ OrNothing Fields right rightBytes := by
  induction reads with
  | nothing count => cases without
  | last compress count isGroup => exact .inl ⟨without, .last isGroup, by simp⟩
  | quad compress count octets =>
      exact .inl ⟨without, .quad octets, fun _ => ⟨octets.length.1.ge, fun _ => octets⟩⟩
  | @colon compress after count quad group text bytes isGroup rest nonempty ih =>
      rcases ih without with ⟨same, fields, octets⟩ | ⟨left, leftBytes, right, rightBytes, rfl, rfl,
        same, groups, fields⟩
      · refine .inl ⟨same, .colon isGroup fields, fun ended => ?_⟩
        have length := (octets ended).1
        simp only [groupBytes, List.cons_append, List.nil_append, List.length_cons]
        exact ⟨by omega, by omega⟩
      · refine .inr ⟨group ++ ':'.toUInt8 :: left, groupBytes group ++ leftBytes, right,
          rightBytes, by simp, by simp, ?_, .colon isGroup groups, fields⟩
        rw [same]
        simp [groupBytes]
        omega
  | @double after count quad group text bytes isGroup rest ih =>
      obtain ⟨same, fields⟩ := rest.after_colons rfl
      exact .inr ⟨group, groupBytes group, text, bytes, rfl, rfl, same, .last isGroup, fields⟩

theorem Groups.even {text bytes : List UInt8} (groups : Groups text bytes) :
    2 ∣ bytes.length := by
  induction groups with
  | last isGroup => exact Nat.dvd_refl 2
  | colon isGroup rest ih =>
      simp only [groupBytes, List.cons_append, List.nil_append, List.length_cons]
      omega

theorem Fields.even {text bytes : List UInt8} (fields : Fields text bytes) :
    2 ∣ bytes.length := by
  induction fields with
  | last isGroup => exact Nat.dvd_refl 2
  | quad octets =>
      rw [octets.length.1]
      decide
  | colon isGroup rest ih =>
      simp only [groupBytes, List.cons_append, List.nil_append, List.length_cons]
      omega

theorem OrNothing.even {reads : List UInt8 → List UInt8 → Prop} {text bytes : List UInt8}
    (read : OrNothing reads text bytes) (even : reads text bytes → 2 ∣ bytes.length) :
    2 ∣ bytes.length := by
  rcases read with ⟨_, rfl⟩ | read
  · exact Nat.dvd_zero 2
  · exact even read

theorem finishBytes_compressed {quad : Bool} {leftBytes rightBytes result : List UInt8}
    (even : 2 ∣ leftBytes.length + rightBytes.length) :
    finishBytes quad (leftBytes ++ rightBytes) (some leftBytes.length) = some result ↔
      leftBytes.length + rightBytes.length ≤ 14 ∧
        leftBytes ++ List.replicate (16 - (leftBytes.length + rightBytes.length)) 0 ++
          rightBytes = result := by
  rw [finishBytes, List.length_append, List.take_left, List.drop_left]
  split
  · rw [Option.some.injEq]
    exact ⟨fun same => ⟨by omega, same⟩, fun same => same.2⟩
  · refine ⟨by simp, ?_⟩
    rintro ⟨less, _⟩
    omega

def ReadsAddress (text result : List UInt8) : Prop :=
  ∃ bytes after quad, finishBytes quad bytes after = some result ∧
    (ReadsFields none 0 text bytes after quad ∨
      ∃ rest, text = ':'.toUInt8 :: ':'.toUInt8 :: rest ∧ ReadsFields (some 0) 0 rest bytes after quad)

theorem IsAddress.reads {text result : List UInt8} (address : IsAddress text result) :
    ReadsAddress text result := by
  cases address with
  | ipv4 octets =>
      refine ⟨result, none, true, ?_, .inl (.quad none 0 octets)⟩
      simp [finishBytes, octets.length.1]
  | ipv6 fields full =>
      obtain ⟨_, quad, reads⟩ := fields.reads none 0
      exact ⟨result, none, quad, by simp [finishBytes, full], .inl reads⟩
  | @compressed left leftBytes right rightBytes before behind missing =>
      have even : 2 ∣ leftBytes.length + rightBytes.length :=
        Nat.dvd_add (before.even Groups.even) (behind.even Fields.even)
      have right : ∀ count, ∃ quad, ReadsFields (some count) count right rightBytes (some count) quad := by
        intro count
        rcases behind with ⟨rfl, rfl⟩ | fields
        · exact ⟨false, .nothing count⟩
        · exact (fields.reads (some count) count).2
      obtain ⟨quad, reads⟩ := right leftBytes.length
      refine ⟨leftBytes ++ rightBytes, some leftBytes.length, quad,
        (finishBytes_compressed even).mpr ⟨missing, rfl⟩, ?_⟩
      rcases before with ⟨rfl, rfl⟩ | groups
      · exact .inr ⟨_, rfl, reads⟩
      · exact .inl (groups.reads (by rw [Nat.zero_add]; exact reads))

theorem ReadsAddress.isAddress {text result : List UInt8} (reads : ReadsAddress text result) :
    IsAddress text result := by
  obtain ⟨bytes, after, quad, finished, reads | ⟨rest, rfl, reads⟩⟩ := reads
  · rcases reads.of_none rfl with ⟨rfl, fields, octets⟩ | ⟨left, leftBytes, right, rightBytes,
      rfl, rfl, rfl, groups, behind⟩
    · rw [finishBytes] at finished
      split at finished
      · rename_i ended
        obtain rfl := Option.some.inj finished
        exact .ipv4 ((octets ended.1).2 ended.2)
      · split at finished
        · rename_i full
          obtain rfl := Option.some.inj finished
          exact .ipv6 fields full
        · cases finished
    · rw [Nat.zero_add] at finished
      obtain ⟨missing, rfl⟩ := (finishBytes_compressed
        (Nat.dvd_add groups.even (behind.even Fields.even))).mp finished
      exact .compressed (.inr groups) behind missing
  · obtain ⟨rfl, behind⟩ := reads.after_colons rfl
    have even : 2 ∣ ([] : List UInt8).length + bytes.length := by
      rw [List.length_nil, Nat.zero_add]
      exact behind.even Fields.even
    obtain ⟨missing, rfl⟩ := (finishBytes_compressed even).mp finished
    exact .compressed (.inl ⟨rfl, rfl⟩) behind missing

theorem isAddress_iff {text result : List UInt8} :
    IsAddress text result ↔ ReadsAddress text result :=
  ⟨IsAddress.reads, ReadsAddress.isAddress⟩

theorem Groups.length_le {text bytes : List UInt8} (groups : Groups text bytes) :
    2 * text.length + 2 ≤ 5 * bytes.length := by
  induction groups with
  | last isGroup =>
      have short := isGroup.short
      simp only [groupBytes, List.length_cons, List.length_nil]
      omega
  | colon isGroup rest ih =>
      have short := isGroup.short
      simp only [groupBytes, List.cons_append, List.nil_append, List.length_cons,
        List.length_append]
      omega

theorem Fields.length_le {text bytes : List UInt8} (fields : Fields text bytes) :
    2 * text.length ≤ 5 * bytes.length + 10 := by
  induction fields with
  | last isGroup =>
      have short := isGroup.short
      simp only [groupBytes, List.length_cons, List.length_nil]
      omega
  | quad octets =>
      have length := octets.length
      omega
  | colon isGroup rest ih =>
      have short := isGroup.short
      simp only [groupBytes, List.cons_append, List.nil_append, List.length_cons,
        List.length_append]
      omega

theorem IsAddress.length_le {text result : List UInt8} (address : IsAddress text result) :
    text.length ≤ ipMaxAddrlen - 1 := by
  rw [ipMaxAddrlen]
  cases address with
  | ipv4 octets =>
      have length := octets.length
      omega
  | ipv6 fields full =>
      have length := fields.length_le
      omega
  | @compressed left leftBytes right rightBytes before behind missing =>
      have leftLength : 2 * left.length ≤ 5 * leftBytes.length := by
        rcases before with ⟨rfl, rfl⟩ | groups
        · simp
        · have length := groups.length_le
          omega
      have rightLength : 2 * right.length ≤ 5 * rightBytes.length + 10 := by
        rcases behind with ⟨rfl, rfl⟩ | fields
        · simp
        · exact fields.length_le
      simp only [List.length_append, List.length_cons]
      omega

end PhpDriver
