import PhpDriver.Util.DecimalParse

namespace PhpDriver

open Data

/-! `php_driver_parse_ip_address` of `util/inet.c`. Characters are those of the C locale, and
the end of the string stands for the zero byte behind it. -/

inductive AddressToken where
  | endOfAddress
  | colon
  | dot
  | hex
  | dec
  | illegal
deriving DecidableEq

def AddressToken.describe : AddressToken → String
  | .endOfAddress => "end of address"
  | .colon => "colon"
  | .dot => "dot"
  | .hex => "hex address field"
  | .dec => "address field"
  | .illegal => "illegal character"

inductive AddressState where
  | start
  | field
  | compressed
  | afterHex
  | afterDec
  | ipv4Byte
  | ipv4Dot
  | afterColon
  | atEnd
deriving DecidableEq

def tokenMaxLen : Nat := 4

def ipMaxAddrlen : Nat := 50

def inetV4Length : Nat := 4

def inetV6Length : Nat := 16

def tolower (char : UInt8) : UInt8 :=
  if 65 ≤ char.toNat && char.toNat ≤ 90 then char + 32 else char

def xdigitValue (char : UInt8) : Nat :=
  if DecimalText.isDigit char then DecimalText.digitValue char
  else if 97 ≤ char.toNat then char.toNat - 87
  else char.toNat - 55

def scanHex (token : List UInt8) : Nat :=
  token.foldl (fun field char => 16 * field + xdigitValue char) 0

def numberOf (address : List UInt8) : List UInt8 :=
  (address.take tokenMaxLen).takeWhile isXDigit

def numberType (number : List UInt8) : AddressToken :=
  if number.all DecimalText.isDigit then .dec else .hex

def ipAddressTokenize (address : List UInt8) : AddressToken × List UInt8 :=
  match address with
  | [] => (.endOfAddress, [0])
  | ch :: _ =>
      if isXDigit ch then
        let number := numberOf address
        (numberType number, number.map tolower)
      else if ch = ':'.toUInt8 then (.colon, [ch])
      else if ch = '.'.toUInt8 then (.dot, [ch])
      else (.illegal, [ch])

/-- The exceptions, most of which also quote the address. -/
inductive AddressError where
  /-- `The IP address "%s" is too long (at most %d characters are expected)`. -/
  | tooLong
  /-- `Illegal character "%c" at position %d in address "%s"`. -/
  | illegal (character : UInt8) (position : Int)
  /-- `Unexpected %s at position %d in address "%s", expected ` and what was expected. -/
  | unexpected (token : String) (position : Int) (expected : String)
  /-- `Duplicate "::" block at position %d in address "%s"`. -/
  | duplicate (position : Int)
  /-- `Illegal IPv4 character "%s" at position %d in address "%s" (no leading zeroes are
  allowed)`. -/
  | leadingZero (token : List UInt8) (position : Int)
  /-- `Illegal IPv4 segment value '%d' at position %d in address "%s" (expected: 0 - 255)`. -/
  | segment (value : Nat) (position : Int)
  /-- `Address "%s" contains a compressed zeroes block '::', but the address already contains
  %d bytes or more`, which quotes the bytes. -/
  | full (address : List UInt8)
  /-- `Address "%s" contains only %d bytes  (%d bytes are expected)`. -/
  | tooShort (bytes : Int)
  /-- `Address "%s" exceeds the maximum IPv6 byte length (%d bytes are expected)`. -/
  | exceeds
deriving DecidableEq

structure AddressParser where
  inPtr : Nat := 0
  tokenLen : Int := -1
  prevTokenLen : Int := 0
  state : AddressState := .start
  pos : Int := -1
  compressPos : Int := -1
  ipv4Pos : Int := -1
  address : List UInt8 := List.replicate inetV6Length 0
  isIpv4 : Bool := false

inductive AddressStep where
  | continues (next : AddressParser)
  | breaks (last : AddressParser)
  | fails (error : AddressError)

namespace AddressParser

variable (parser : AddressParser)

def put (byte : UInt8) : AddressParser :=
  { parser with pos := parser.pos + 1, address := parser.address.set (parser.pos + 1).toNat byte }

def takeBack : AddressParser :=
  { parser with pos := parser.pos - 1, address := parser.address.set parser.pos.toNat 0 }

def position : Int :=
  parser.inPtr - 1

def expecting (type : AddressToken) (expected : String) : AddressStep :=
  .fails (.unexpected type.describe parser.position expected)

def fieldToken (type : AddressToken) (token : List UInt8) : AddressStep :=
  if type = .endOfAddress ∧ parser.pos + 1 = parser.compressPos then .breaks parser
  else if type = .hex ∨ type = .dec then
    let parser : AddressParser :=
      { parser with state := if type = .hex then .afterHex else .afterDec }
    if parser.pos + 3 > inetV6Length then .breaks { parser with pos := parser.pos + 2 }
    else
      let field := scanHex token
      .continues ((parser.put (UInt8.ofNat (field / 256))).put (UInt8.ofNat field))
  else parser.expecting type "an address field"

def compressedToken (type : AddressToken) : AddressStep :=
  if type = .colon then
    if parser.compressPos ≠ -1 then .fails (.duplicate parser.position)
    else .continues { parser with
      compressPos := if parser.pos = -1 then 0 else parser.pos + 1
      state := .field }
  else parser.expecting type "a colon"

def startToken (type : AddressToken) (token : List UInt8) : AddressStep :=
  if type = .colon then .continues { parser with state := .compressed }
  else if type = .hex ∨ type = .dec then
    fieldToken { parser with state := .field } type token
  else parser.expecting type "an address field or a colon"

def afterColonToken (type : AddressToken) (token : List UInt8) : AddressStep :=
  if type = .colon then compressedToken { parser with state := .compressed } type
  else fieldToken { parser with state := .field } type token

def afterHexToken (type : AddressToken) : AddressStep :=
  if type = .endOfAddress then .breaks parser
  else if type = .colon then .continues { parser with state := .afterColon }
  else parser.expecting type "a colon"

def afterDecToken (type : AddressToken) : AddressStep :=
  if type = .endOfAddress then .breaks parser
  else if type = .colon then .continues { parser with state := .afterColon }
  else if type = .dot then
    -- the bytes of the field are those of an IPv4 byte, which is read again
    let parser := parser.takeBack.takeBack
    .continues { parser with
      inPtr := parser.inPtr - (parser.prevTokenLen + 1).toNat
      state := .ipv4Byte
      ipv4Pos := 0 }
  else parser.expecting type "a colon or a dot"

def ipv4ByteToken (type : AddressToken) (token : List UInt8) : AddressStep :=
  if type = .dec then
    if 1 < token.length ∧ token.head? = some '0'.toUInt8 then
      .fails (.leadingZero token parser.position)
    else
      let ipv4Byte := DecimalText.toNat token
      if 255 < ipv4Byte then .fails (.segment ipv4Byte parser.position)
      else if parser.pos + 2 > inetV6Length then .breaks { parser with pos := parser.pos + 1 }
      else
        let parser : AddressParser := { parser with ipv4Pos := parser.ipv4Pos + 1 }
        let parser := parser.put (UInt8.ofNat ipv4Byte)
        if parser.ipv4Pos = inetV4Length then
          .continues { parser with
            isIpv4 := parser.compressPos = -1 ∧ parser.pos + 1 = inetV4Length
            state := .atEnd }
        else .continues { parser with state := .ipv4Dot }
  else parser.expecting type "an IPv4 address byte (0 - 255)"

def ipv4DotToken (type : AddressToken) : AddressStep :=
  if type = .dot then .continues { parser with state := .ipv4Byte }
  else parser.expecting type "a dot"

def endToken (type : AddressToken) : AddressStep :=
  if type = .endOfAddress then .breaks parser
  else parser.expecting type "the end of address"

def readToken (type : AddressToken) (token : List UInt8) : AddressStep :=
  match parser.state with
  | .start => parser.startToken type token
  | .field => parser.fieldToken type token
  | .compressed => parser.compressedToken type
  | .afterHex => parser.afterHexToken type
  | .afterDec => parser.afterDecToken type
  | .ipv4Byte => parser.ipv4ByteToken type token
  | .ipv4Dot => parser.ipv4DotToken type
  | .afterColon => parser.afterColonToken type token
  | .atEnd => parser.endToken type

def advance (token : List UInt8) : AddressParser :=
  { parser with
    prevTokenLen := if parser.tokenLen > -1 then parser.tokenLen else parser.prevTokenLen
    tokenLen := token.length
    inPtr := parser.inPtr + token.length }

def step (input : List UInt8) : AddressStep :=
  let (type, token) := ipAddressTokenize (input.drop parser.inPtr)
  let parser := parser.advance token
  if type = .illegal then .fails (.illegal (token.headD 0) parser.position)
  else parser.readToken type token

def moveByte (compressPos moveLen : Nat) (address : List UInt8) (i : Nat) : List UInt8 :=
  let srcPos := compressPos + moveLen - i - 1
  let dstPos := inetV6Length - i - 1
  (address.set dstPos (address.getD srcPos 0)).set srcPos 0

def inflate (compressPos moveLen : Nat) (address : List UInt8) : List UInt8 :=
  (List.range moveLen).foldl (moveByte compressPos moveLen) address

def finish : Except AddressError (List UInt8) :=
  if parser.isIpv4 then .ok (parser.address.take inetV4Length)
  else if parser.compressPos ≠ -1 then
    if parser.pos + 1 ≥ inetV6Length then .error (.full parser.address)
    else if parser.pos + 1 ≠ parser.compressPos then
      .ok (inflate parser.compressPos.toNat (parser.pos + 1 - parser.compressPos).toNat
        parser.address)
    else .ok parser.address
  else if parser.pos + 1 < inetV6Length then .error (.tooShort (parser.pos + 1))
  else if parser.pos + 1 > inetV6Length then .error .exceeds
  else .ok parser.address

end AddressParser

def AddressState.phase : AddressState → Nat
  | .ipv4Byte | .ipv4Dot | .atEnd => 0
  | .start | .field | .compressed | .afterHex | .afterDec | .afterColon => 1

theorem ipAddressTokenize_nonempty {address token : List UInt8} {type : AddressToken}
    (read : ipAddressTokenize address = (type, token)) (more : type ≠ .endOfAddress) :
    address ≠ [] ∧ token ≠ [] := by
  cases address with
  | nil => exact absurd (Prod.mk.inj read).1.symm more
  | cons ch rest =>
      refine ⟨by simp, ?_⟩
      rw [ipAddressTokenize] at read
      split at read
      · rename_i digit
        obtain ⟨-, rfl⟩ := Prod.mk.inj read
        simp [numberOf, tokenMaxLen, digit]
      · grind

namespace AddressParser

structure Advances (parser next : AddressParser) (type : AddressToken) : Prop where
  more : type ≠ .endOfAddress
  progress : next.inPtr = parser.inPtr ∧ next.state.phase = parser.state.phase ∨
    next.state.phase < parser.state.phase

theorem fieldToken_advances {parser next : AddressParser} {type : AddressToken}
    {token : List UInt8} (step : parser.fieldToken type token = .continues next)
    (phase : parser.state.phase = 1) : Advances parser next type := by
  unfold fieldToken at step
  split at step
  · cases step
  · split at step
    · rename_i number
      dsimp only at step
      split at step
      · cases step
      · obtain rfl := AddressStep.continues.inj step
        refine ⟨by rintro rfl; simp at number, .inl ⟨rfl, ?_⟩⟩
        rw [phase]
        simp only [put]
        split <;> rfl
    · cases step

theorem compressedToken_advances {parser next : AddressParser} {type : AddressToken}
    (step : parser.compressedToken type = .continues next) (phase : parser.state.phase = 1) :
    Advances parser next type := by
  unfold compressedToken at step
  split at step
  · rename_i colon
    split at step
    · cases step
    · obtain rfl := AddressStep.continues.inj step
      exact ⟨by simp [colon], .inl ⟨rfl, phase.symm⟩⟩
  · cases step

theorem readToken_advances {parser next : AddressParser} {type : AddressToken}
    {token : List UInt8} (step : parser.readToken type token = .continues next) :
    Advances parser next type := by
  unfold readToken at step
  split at step
  · rename_i state
    unfold startToken at step
    split at step
    · obtain rfl := AddressStep.continues.inj step
      rename_i colon
      exact ⟨by simp [colon], .inl ⟨rfl, by rw [state]; rfl⟩⟩
    · split at step
      · have advances := fieldToken_advances step rfl
        exact ⟨advances.more, by rw [state]; exact advances.progress⟩
      · cases step
  · rename_i state
    exact fieldToken_advances step (by rw [state]; rfl)
  · rename_i state
    exact compressedToken_advances step (by rw [state]; rfl)
  · rename_i state
    unfold afterHexToken at step
    split at step
    · cases step
    · split at step
      · rename_i colon
        obtain rfl := AddressStep.continues.inj step
        exact ⟨by simp [colon], .inl ⟨rfl, by rw [state]; rfl⟩⟩
      · cases step
  · rename_i state
    unfold afterDecToken at step
    split at step
    · cases step
    · rename_i more
      split at step
      · obtain rfl := AddressStep.continues.inj step
        exact ⟨more, .inl ⟨rfl, by rw [state]; rfl⟩⟩
      · split at step
        · obtain rfl := AddressStep.continues.inj step
          exact ⟨more, .inr (by rw [state]; exact Nat.zero_lt_one)⟩
        · cases step
  · rename_i state
    unfold ipv4ByteToken at step
    split at step
    · rename_i dec
      refine ⟨by simp [dec], .inl ?_⟩
      split at step
      · cases step
      · dsimp only at step
        split at step
        · cases step
        · split at step
          · cases step
          · split at step
            · obtain rfl := AddressStep.continues.inj step
              exact ⟨rfl, by rw [state]; rfl⟩
            · obtain rfl := AddressStep.continues.inj step
              exact ⟨rfl, by rw [state]; rfl⟩
    · cases step
  · rename_i state
    unfold ipv4DotToken at step
    split at step
    · rename_i dot
      obtain rfl := AddressStep.continues.inj step
      exact ⟨by simp [dot], .inl ⟨rfl, by rw [state]; rfl⟩⟩
    · cases step
  · rename_i state
    unfold afterColonToken at step
    split at step
    · have advances := compressedToken_advances step rfl
      exact ⟨advances.more, by rw [state]; exact advances.progress⟩
    · have advances := fieldToken_advances step rfl
      exact ⟨advances.more, by rw [state]; exact advances.progress⟩
  · unfold endToken at step
    split at step
    · cases step
    · cases step

theorem step_decreases {input : List UInt8} {parser next : AddressParser}
    (step : parser.step input = .continues next) :
    next.state.phase = parser.state.phase ∧
        input.length - next.inPtr < input.length - parser.inPtr ∨
      next.state.phase < parser.state.phase := by
  unfold AddressParser.step at step
  cases read : ipAddressTokenize (input.drop parser.inPtr) with
  | mk type token =>
      rw [read] at step
      dsimp only at step
      split at step
      · cases step
      · have advances := readToken_advances step
        obtain ⟨inside, nonempty⟩ := ipAddressTokenize_nonempty read advances.more
        have below : parser.inPtr < input.length := by
          rw [Ne, List.drop_eq_nil_iff] at inside
          omega
        have longer : 0 < token.length := List.length_pos_iff.mpr nonempty
        rcases advances.progress with ⟨place, phase⟩ | phase
        · have further : next.inPtr = parser.inPtr + token.length := place
          exact .inl ⟨phase, by omega⟩
        · exact .inr phase

end AddressParser

def parseAddressLoop (input : List UInt8) (parser : AddressParser) :
    Except AddressError (List UInt8) :=
  match _step : parser.step input with
  | .continues next => parseAddressLoop input next
  | .breaks last => last.finish
  | .fails error => .error error
termination_by (parser.state.phase, input.length - parser.inPtr)
decreasing_by
  rw [Prod.lex_def]
  rcases AddressParser.step_decreases _step with ⟨phase, less⟩ | phase
  · exact .inr ⟨phase, less⟩
  · exact .inl phase

def parseIpAddress (address : List UInt8) : Except AddressError (List UInt8) :=
  let input := cString address
  if input.length > ipMaxAddrlen - 1 then .error .tooLong else parseAddressLoop input {}

end PhpDriver
