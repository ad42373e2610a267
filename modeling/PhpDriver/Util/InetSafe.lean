import PhpDriver.Util.InetRead

namespace PhpDriver

open Data

/-! `php_driver_parse_ip_address` with every access to the string and to the address array
looked at: `none` is an access outside. -/

def charIn (input : List UInt8) (index : Nat) : Option UInt8 :=
  if index ≤ input.length then some (input.getD index 0) else none

def numberIn (input : List UInt8) (inPtr : Nat) :
    Nat → List UInt8 → Bool → Option (List UInt8 × Bool)
  | 0, token, isHex => some (token, isHex)
  | more + 1, token, isHex => do
      let ch ← charIn input (inPtr + token.length)
      if isXDigit ch then
        numberIn input inPtr more (token ++ [tolower ch]) (isHex || !DecimalText.isDigit ch)
      else some (token, isHex)

def ipAddressTokenizeIn (input : List UInt8) (inPtr : Nat) :
    Option (AddressToken × List UInt8) := do
  let ch ← charIn input inPtr
  if isXDigit ch then
    let (token, isHex) ← numberIn input inPtr tokenMaxLen [] false
    some (if isHex then .hex else .dec, token)
  else if ch = 0 then some (.endOfAddress, [ch])
  else if ch = ':'.toUInt8 then some (.colon, [ch])
  else if ch = '.'.toUInt8 then some (.dot, [ch])
  else some (.illegal, [ch])

def InAddress (index : Int) : Prop :=
  0 ≤ index ∧ index < inetV6Length

instance (index : Int) : Decidable (InAddress index) :=
  inferInstanceAs (Decidable (_ ∧ _))

namespace AddressParser

variable (parser : AddressParser)

def putIn (byte : UInt8) : Option AddressParser :=
  if InAddress (parser.pos + 1) then some (parser.put byte) else none

def takeBackIn : Option AddressParser :=
  if InAddress parser.pos then some parser.takeBack else none

def fieldTokenIn (type : AddressToken) (token : List UInt8) : Option AddressStep :=
  if type = .endOfAddress ∧ parser.pos + 1 = parser.compressPos then some (.breaks parser)
  else if type = .hex ∨ type = .dec then
    let parser : AddressParser :=
      { parser with state := if type = .hex then .afterHex else .afterDec }
    if parser.pos + 3 > inetV6Length then some (.breaks { parser with pos := parser.pos + 2 })
    else do
      let field := scanHex token
      let parser ← parser.putIn (UInt8.ofNat (field / 256))
      let parser ← parser.putIn (UInt8.ofNat field)
      some (.continues parser)
  else some (parser.expecting type "an address field")

def startTokenIn (type : AddressToken) (token : List UInt8) : Option AddressStep :=
  if type = .colon then some (.continues { parser with state := .compressed })
  else if type = .hex ∨ type = .dec then
    fieldTokenIn { parser with state := .field } type token
  else some (parser.expecting type "an address field or a colon")

def afterColonTokenIn (type : AddressToken) (token : List UInt8) : Option AddressStep :=
  if type = .colon then some (compressedToken { parser with state := .compressed } type)
  else fieldTokenIn { parser with state := .field } type token

def afterDecTokenIn (type : AddressToken) : Option AddressStep :=
  if type = .endOfAddress then some (.breaks parser)
  else if type = .colon then some (.continues { parser with state := .afterColon })
  else if type = .dot then do
    let parser ← parser.takeBackIn
    let parser ← parser.takeBackIn
    -- the pointer must not leave the string at its front either
    if 0 ≤ parser.prevTokenLen + 1 ∧ parser.prevTokenLen + 1 ≤ parser.inPtr then
      some (.continues { parser with
        inPtr := parser.inPtr - (parser.prevTokenLen + 1).toNat
        state := .ipv4Byte
        ipv4Pos := 0 })
    else none
  else some (parser.expecting type "a colon or a dot")

def ipv4ByteTokenIn (type : AddressToken) (token : List UInt8) : Option AddressStep :=
  if type = .dec then
    if 1 < token.length ∧ token.head? = some '0'.toUInt8 then
      some (.fails (.leadingZero token parser.position))
    else
      let ipv4Byte := DecimalText.toNat token
      if 255 < ipv4Byte then some (.fails (.segment ipv4Byte parser.position))
      else if parser.pos + 2 > inetV6Length then
        some (.breaks { parser with pos := parser.pos + 1 })
      else do
        let parser : AddressParser := { parser with ipv4Pos := parser.ipv4Pos + 1 }
        let parser ← parser.putIn (UInt8.ofNat ipv4Byte)
        if parser.ipv4Pos = inetV4Length then
          some (.continues { parser with
            isIpv4 := parser.compressPos = -1 ∧ parser.pos + 1 = inetV4Length
            state := .atEnd })
        else some (.continues { parser with state := .ipv4Dot })
  else some (parser.expecting type "an IPv4 address byte (0 - 255)")

def readTokenIn (type : AddressToken) (token : List UInt8) : Option AddressStep :=
  match parser.state with
  | .start => parser.startTokenIn type token
  | .field => parser.fieldTokenIn type token
  | .compressed => some (parser.compressedToken type)
  | .afterHex => some (parser.afterHexToken type)
  | .afterDec => parser.afterDecTokenIn type
  | .ipv4Byte => parser.ipv4ByteTokenIn type token
  | .ipv4Dot => some (parser.ipv4DotToken type)
  | .afterColon => parser.afterColonTokenIn type token
  | .atEnd => some (parser.endToken type)

def stepIn (input : List UInt8) : Option AddressStep := do
  let (type, token) ← ipAddressTokenizeIn input parser.inPtr
  let parser := parser.advance token
  if type = .illegal then some (.fails (.illegal (token.headD 0) parser.position))
  else parser.readTokenIn type token

def moveByteIn (compressPos moveLen : Int) (address : List UInt8) (i : Nat) :
    Option (List UInt8) :=
  let srcPos := compressPos + moveLen - i - 1
  let dstPos := (inetV6Length : Int) - i - 1
  if InAddress srcPos ∧ InAddress dstPos then
    some ((address.set dstPos.toNat (address.getD srcPos.toNat 0)).set srcPos.toNat 0)
  else none

def finishIn : Option (Except AddressError (List UInt8)) :=
  if parser.isIpv4 then some (.ok (parser.address.take inetV4Length))
  else if parser.compressPos ≠ -1 then
    if parser.pos + 1 ≥ inetV6Length then some (.error (.full parser.address))
    else if parser.pos + 1 ≠ parser.compressPos then do
      let moveLen := parser.pos + 1 - parser.compressPos
      let address ← (List.range moveLen.toNat).foldlM (moveByteIn parser.compressPos moveLen)
        parser.address
      some (.ok address)
    else some (.ok parser.address)
  else if parser.pos + 1 < inetV6Length then some (.error (.tooShort (parser.pos + 1)))
  else if parser.pos + 1 > inetV6Length then some (.error .exceeds)
  else some (.ok parser.address)

end AddressParser

/-- The loop comes to an end, and no access of it is outside. -/
inductive SafeRun (input : List UInt8) :
    AddressParser → Except AddressError (List UInt8) → Prop
  | continues {parser next : AddressParser} {result : Except AddressError (List UInt8)}
      (taken : parser.stepIn input = some (.continues next)) (rest : SafeRun input next result) :
      SafeRun input parser result
  | breaks {parser last : AddressParser} {result : Except AddressError (List UInt8)}
      (taken : parser.stepIn input = some (.breaks last))
      (finished : last.finishIn = some result) : SafeRun input parser result
  | fails {parser : AddressParser} {error : AddressError}
      (taken : parser.stepIn input = some (.fails error)) : SafeRun input parser (.error error)

section

variable {input : List UInt8} {inPtr : Nat}

/-- At the end there is the terminator, before it the string goes on. -/
theorem charIn_cases (inside : inPtr ≤ input.length) :
    input.drop inPtr = [] ∧ charIn input inPtr = some 0 ∨
      ∃ ch, input.drop inPtr = ch :: input.drop (inPtr + 1) ∧ charIn input inPtr = some ch ∧
        inPtr + 1 ≤ input.length := by
  rw [charIn, if_pos inside]
  rcases Nat.lt_or_eq_of_le inside with before | rfl
  · right
    refine ⟨input[inPtr], List.drop_eq_getElem_cons before, ?_, before⟩
    rw [List.getD_eq_getElem?_getD, List.getElem?_eq_getElem before, Option.getD_some]
  · left
    simp

theorem numberIn_eq (more : Nat) (token : List UInt8) (isHex : Bool)
    (inside : inPtr + token.length ≤ input.length) :
    numberIn input inPtr more token isHex =
      let number := ((input.drop (inPtr + token.length)).take more).takeWhile isXDigit
      some (token ++ number.map tolower, isHex || !number.all DecimalText.isDigit) := by
  induction more generalizing token isHex with
  | zero => simp [numberIn]
  | succ more ih =>
      have noDigit : isXDigit 0 = false := by decide
      rcases charIn_cases inside with ⟨atEnd, read⟩ | ⟨ch, shape, read, further⟩
      · simp [numberIn, read, atEnd, noDigit]
      · rw [numberIn, read, shape, List.take_succ_cons]
        by_cases digit : isXDigit ch = true
        · have length : inPtr + (token ++ [tolower ch]).length = inPtr + token.length + 1 := by
            simp [Nat.add_assoc]
          have tail := ih (token ++ [tolower ch]) (isHex || !DecimalText.isDigit ch)
            (length ▸ further)
          rw [length] at tail
          simp only [Option.bind_eq_bind, Option.bind_some, digit, if_true, tail,
            List.takeWhile_cons_of_pos digit, List.map_cons, List.all_cons, List.append_assoc,
            List.singleton_append, Bool.not_and, Bool.or_assoc]
        · simp [digit]

theorem ipAddressTokenizeIn_eq (noTerminator : 0 ∉ input) (inside : inPtr ≤ input.length) :
    ipAddressTokenizeIn input inPtr = some (ipAddressTokenize (input.drop inPtr)) := by
  rcases charIn_cases inside with ⟨atEnd, read⟩ | ⟨ch, shape, read, _⟩
  · rw [ipAddressTokenizeIn, read, atEnd]
    rfl
  · have number := numberIn_eq tokenMaxLen [] false inside
    have nonzero : ch ≠ 0 := by
      rintro rfl
      exact noTerminator (List.mem_of_mem_drop (shape ▸ List.mem_cons_self))
    rw [List.length_nil, Nat.add_zero] at number
    rw [ipAddressTokenizeIn, read, shape, ipAddressTokenize, ← shape]
    simp only [Option.bind_eq_bind, Option.bind_some, number, nonzero, if_false, List.nil_append,
      Bool.false_or, numberOf, numberType]
    split
    · have swap (decimal : Bool) : (if (!decimal) = true then AddressToken.hex else .dec) =
          if decimal = true then .dec else .hex := by
        cases decimal <;> rfl
      rw [swap]
      rfl
    · split
      · rfl
      · split <;> rfl

end

/-! What holds at the head of the loop, and when a token has been read. -/

/-- In the state `afterDec` the last two bytes are those of the token, behind any compression. -/
structure SafeParser (input : List UInt8) (parser : AddressParser) : Prop where
  inside : parser.inPtr ≤ input.length
  low : -1 ≤ parser.pos
  high : parser.pos < inetV6Length
  compress : -1 ≤ parser.compressPos ∧ parser.compressPos ≤ parser.pos + 1
  field : parser.state = .afterDec → 1 ≤ parser.pos ∧ parser.compressPos ≤ parser.pos - 1 ∧
    0 ≤ parser.tokenLen ∧ parser.tokenLen ≤ parser.inPtr

structure TokenRead (input : List UInt8) (type : AddressToken) (parser : AddressParser) : Prop where
  inside : type ≠ .endOfAddress → parser.inPtr ≤ input.length
  low : -1 ≤ parser.pos
  high : parser.pos < inetV6Length
  compress : -1 ≤ parser.compressPos ∧ parser.compressPos ≤ parser.pos + 1
  token : 0 ≤ parser.tokenLen ∧ parser.tokenLen ≤ parser.inPtr
  field : parser.state = .afterDec → 1 ≤ parser.pos ∧ parser.compressPos ≤ parser.pos - 1 ∧
    0 ≤ parser.prevTokenLen ∧ parser.prevTokenLen + 1 ≤ parser.inPtr

def SafeStep (input : List UInt8) : AddressStep → Prop
  | .continues next => SafeParser input next
  | .breaks last => -1 ≤ last.compressPos ∧ last.compressPos ≤ last.pos + 1
  | .fails _ => True

namespace TokenRead

variable {input token : List UInt8} {type : AddressToken} {parser : AddressParser}

theorem withState (read : TokenRead input type parser) {state : AddressState}
    (other : state ≠ .afterDec) : TokenRead input type { parser with state } :=
  ⟨read.inside, read.low, read.high, read.compress, read.token, fun same => absurd same other⟩

theorem continues (read : TokenRead input type parser) (more : type ≠ .endOfAddress)
    {state : AddressState} (other : state ≠ .afterDec) :
    SafeStep input (.continues { parser with state }) :=
  ⟨read.inside more, read.low, read.high, read.compress, fun same => absurd same other⟩

theorem putIn_eq {byte : UInt8} (low : -1 ≤ parser.pos) (room : parser.pos + 1 < inetV6Length) :
    parser.putIn byte = some (parser.put byte) :=
  if_pos ⟨by omega, room⟩

theorem fieldToken (read : TokenRead input type parser) :
    parser.fieldTokenIn type token = some (parser.fieldToken type token) ∧
      SafeStep input (parser.fieldToken type token) := by
  have low := read.low
  rw [AddressParser.fieldTokenIn, AddressParser.fieldToken]
  split
  · exact ⟨rfl, read.compress⟩
  · split
    · rename_i number
      dsimp only
      split
      · refine ⟨rfl, ?_⟩
        have compress := read.compress
        simp only [SafeStep]
        omega
      · rename_i room
        have more : type ≠ .endOfAddress := by
          rintro rfl
          simp at number
        dsimp only [inetV6Length] at room
        rw [putIn_eq (by exact low) (by dsimp only [inetV6Length]; omega), Option.bind_eq_bind,
          Option.bind_some, putIn_eq (by simp only [AddressParser.put]; omega)
            (by simp only [AddressParser.put, inetV6Length]; omega)]
        refine ⟨rfl, read.inside more, ?_, ?_, ?_, ?_⟩
        all_goals
          have compress := read.compress
          have token := read.token
          simp only [AddressParser.put, inetV6Length]
          omega
    · exact ⟨rfl, trivial⟩

theorem compressedToken (read : TokenRead input type parser) :
    SafeStep input (parser.compressedToken type) := by
  rw [AddressParser.compressedToken]
  split
  · rename_i colon
    split
    · trivial
    · refine ⟨read.inside (by simp [colon]), read.low, read.high, ?_, by simp⟩
      have low := read.low
      dsimp only
      split <;> omega
  · trivial

theorem afterDecToken (read : TokenRead input type parser) (state : parser.state = .afterDec) :
    parser.afterDecTokenIn type = some (parser.afterDecToken type) ∧
      SafeStep input (parser.afterDecToken type) := by
  rw [AddressParser.afterDecTokenIn, AddressParser.afterDecToken]
  split
  · exact ⟨rfl, read.compress⟩
  · rename_i more
    split
    · exact ⟨rfl, read.continues more (by simp)⟩
    · split
      · obtain ⟨bytes, behind, nonneg, length⟩ := read.field state
        have high := read.high
        have inside := read.inside more
        have compress := read.compress
        have first : parser.takeBackIn = some parser.takeBack := if_pos ⟨by omega, high⟩
        have second : parser.takeBack.takeBackIn = some parser.takeBack.takeBack := by
          apply if_pos
          simp only [InAddress, AddressParser.takeBack]
          omega
        rw [first, Option.bind_eq_bind, Option.bind_some, second, Option.bind_some, if_pos]
        · refine ⟨rfl, ?_, ?_, ?_, ?_, by simp⟩
          all_goals
            simp only [AddressParser.takeBack]
            omega
        · simp only [AddressParser.takeBack]
          omega
      · exact ⟨rfl, trivial⟩

theorem ipv4ByteToken (read : TokenRead input type parser) :
    parser.ipv4ByteTokenIn type token = some (parser.ipv4ByteToken type token) ∧
      SafeStep input (parser.ipv4ByteToken type token) := by
  rw [AddressParser.ipv4ByteTokenIn, AddressParser.ipv4ByteToken]
  split
  · rename_i dec
    have inside := read.inside (by simp [dec])
    have low := read.low
    have compress := read.compress
    split
    · exact ⟨rfl, trivial⟩
    · dsimp only
      split
      · exact ⟨rfl, trivial⟩
      · split
        · refine ⟨rfl, ?_⟩
          simp only [SafeStep]
          omega
        · rename_i room
          dsimp only [inetV6Length] at room
          rw [putIn_eq (by exact low) (by dsimp only [inetV6Length]; omega), Option.bind_eq_bind,
            Option.bind_some]
          split
          all_goals
            refine ⟨rfl, inside, ?_, ?_, ?_, by simp⟩
            all_goals
              simp only [AddressParser.put, inetV6Length]
              omega
  · exact ⟨rfl, trivial⟩

theorem readToken (read : TokenRead input type parser) :
    parser.readTokenIn type token = some (parser.readToken type token) ∧
      SafeStep input (parser.readToken type token) := by
  rw [AddressParser.readTokenIn, AddressParser.readToken]
  cases state : parser.state with
  | start =>
      dsimp only
      rw [AddressParser.startTokenIn, AddressParser.startToken]
      split
      · rename_i colon
        exact ⟨rfl, read.continues (by simp [colon]) (by simp)⟩
      · split
        · exact (read.withState (by simp)).fieldToken
        · exact ⟨rfl, trivial⟩
  | field => exact read.fieldToken
  | compressed => exact ⟨rfl, read.compressedToken⟩
  | afterHex =>
      dsimp only
      rw [AddressParser.afterHexToken]
      split
      · exact ⟨rfl, read.compress⟩
      · rename_i more
        split
        · exact ⟨rfl, read.continues more (by simp)⟩
        · exact ⟨rfl, trivial⟩
  | afterDec => exact read.afterDecToken state
  | ipv4Byte => exact read.ipv4ByteToken
  | ipv4Dot =>
      dsimp only
      rw [AddressParser.ipv4DotToken]
      split
      · rename_i dot
        exact ⟨rfl, read.continues (by simp [dot]) (by simp)⟩
      · exact ⟨rfl, trivial⟩
  | afterColon =>
      dsimp only
      rw [AddressParser.afterColonTokenIn, AddressParser.afterColonToken]
      split
      · exact ⟨rfl, (read.withState (by simp)).compressedToken⟩
      · exact (read.withState (by simp)).fieldToken
  | atEnd =>
      dsimp only
      rw [AddressParser.endToken]
      split
      · exact ⟨rfl, read.compress⟩
      · exact ⟨rfl, trivial⟩

end TokenRead

section

variable {input : List UInt8} {parser : AddressParser}

theorem SafeParser.start : SafeParser input {} :=
  ⟨Nat.zero_le _, Int.le_refl _, by decide, by decide, by simp⟩

theorem tokenize_length_le {address token : List UInt8} {type : AddressToken}
    (read : ipAddressTokenize address = (type, token)) (more : type ≠ .endOfAddress) :
    token.length ≤ address.length := by
  cases address with
  | nil => exact absurd (Prod.mk.inj read).1.symm more
  | cons ch rest =>
      rw [ipAddressTokenize] at read
      have single : [ch].length ≤ (ch :: rest).length := by simp
      have digits : ((numberOf (ch :: rest)).map tolower).length ≤ (ch :: rest).length := by
        rw [List.length_map, numberOf]
        exact Nat.le_trans (List.takeWhile_prefix _).length_le (List.length_take_le' ..)
      split at read
      · obtain ⟨_, rfl⟩ := Prod.mk.inj read
        exact digits
      · split at read
        · obtain ⟨_, rfl⟩ := Prod.mk.inj read
          exact single
        · split at read
          all_goals
            obtain ⟨_, rfl⟩ := Prod.mk.inj read
            exact single

theorem SafeParser.tokenRead (safe : SafeParser input parser) {token : List UInt8}
    {type : AddressToken}
    (read : ipAddressTokenize (input.drop parser.inPtr) = (type, token)) :
    TokenRead input type (parser.advance token) := by
  have nonempty : 0 < token.length := by
    by_cases atEnd : type = .endOfAddress
    · subst atEnd
      rw [AddressParser.rest_of_end read] at read
      obtain ⟨_, rfl⟩ := Prod.mk.inj read
      exact Nat.one_pos
    · exact List.length_pos_iff.mpr (ipAddressTokenize_nonempty read atEnd).2
  have inside := safe.inside
  refine ⟨?_, safe.low, safe.high, safe.compress, ?_, ?_⟩
  · intro more
    have shorter := tokenize_length_le read more
    rw [List.length_drop] at shorter
    simp only [AddressParser.advance]
    omega
  · simp only [AddressParser.advance]
    omega
  · intro state
    obtain ⟨bytes, behind, nonneg, length⟩ := safe.field state
    refine ⟨bytes, behind, ?_, ?_⟩
    all_goals
      simp only [AddressParser.advance]
      split <;> omega

theorem SafeParser.stepIn (noTerminator : 0 ∉ input) (safe : SafeParser input parser) :
    parser.stepIn input = some (parser.step input) ∧ SafeStep input (parser.step input) := by
  rw [AddressParser.stepIn, ipAddressTokenizeIn_eq noTerminator safe.inside, AddressParser.step]
  cases read : ipAddressTokenize (input.drop parser.inPtr) with
  | mk type token =>
      dsimp only [Option.bind_eq_bind, Option.bind_some]
      split
      · exact ⟨rfl, trivial⟩
      · exact (safe.tokenRead read).readToken

theorem foldlM_eq_some {State Item : Type} {step : State → Item → Option State}
    {move : State → Item → State} {items : List Item}
    (taken : ∀ item ∈ items, ∀ state, step state item = some (move state item)) (state : State) :
    items.foldlM step state = some (items.foldl move state) := by
  induction items generalizing state with
  | nil => rfl
  | cons item items ih =>
      rw [List.foldlM_cons, taken item List.mem_cons_self, Option.bind_eq_bind, Option.bind_some,
        ih fun other member => taken other (List.mem_cons_of_mem _ member), List.foldl_cons]

theorem moveByteIn_eq {compressPos moveLen : Int} (nonneg : 0 ≤ compressPos)
    (room : compressPos + moveLen < inetV6Length) {i : Nat} (less : i < moveLen.toNat)
    (address : List UInt8) :
    AddressParser.moveByteIn compressPos moveLen address i =
      some (AddressParser.moveByte compressPos.toNat moveLen.toNat address i) := by
  dsimp only [inetV6Length] at room
  have source : (compressPos + moveLen - i - 1).toNat =
      compressPos.toNat + moveLen.toNat - i - 1 := by omega
  have target : ((inetV6Length : Int) - i - 1).toNat = inetV6Length - i - 1 := by
    dsimp only [inetV6Length]
    omega
  rw [AddressParser.moveByteIn, if_pos, source, target, AddressParser.moveByte]
  simp only [InAddress, inetV6Length]
  omega

theorem finishIn_eq
    (compress : -1 ≤ parser.compressPos ∧ parser.compressPos ≤ parser.pos + 1) :
    parser.finishIn = some parser.finish := by
  rw [AddressParser.finishIn, AddressParser.finish]
  split
  · rfl
  · split
    · rename_i some_
      split
      · rfl
      · rename_i room
        split
        · have moves : ∀ i ∈ List.range (parser.pos + 1 - parser.compressPos).toNat, ∀ address,
              AddressParser.moveByteIn parser.compressPos (parser.pos + 1 - parser.compressPos)
                  address i =
                some (AddressParser.moveByte parser.compressPos.toNat
                  (parser.pos + 1 - parser.compressPos).toNat address i) :=
            fun i member => moveByteIn_eq (by omega) (by omega) (List.mem_range.mp member)
          dsimp only
          rw [foldlM_eq_some moves parser.address]
          rfl
        · rfl
    · split
      · rfl
      · split <;> rfl

theorem SafeParser.run (noTerminator : 0 ∉ input) (safe : SafeParser input parser) :
    SafeRun input parser (parseAddressLoop input parser) := by
  induction parser using parseAddressLoop.induct input with
  | case1 parser next taken ih =>
      obtain ⟨stepped, after⟩ := safe.stepIn noTerminator
      rw [taken] at stepped after
      rw [parseAddressLoop, taken]
      exact .continues stepped (ih after)
  | case2 parser last taken =>
      obtain ⟨stepped, after⟩ := safe.stepIn noTerminator
      rw [taken] at stepped after
      rw [parseAddressLoop, taken]
      exact .breaks stepped (finishIn_eq after)
  | case3 parser error taken =>
      obtain ⟨stepped, _⟩ := safe.stepIn noTerminator
      rw [taken] at stepped
      rw [parseAddressLoop, taken]
      exact .fails stepped

end

/-- Every string that is not too long is read in a run that comes to an end, and in which no
access to the string or to the address is outside. -/
theorem parse_ip_address_safe (address : List UInt8) :
    if (cString address).length > ipMaxAddrlen - 1 then
      parseIpAddress address = .error .tooLong
    else SafeRun (cString address) {} (parseIpAddress address) := by
  split
  · rename_i long
    exact if_pos long
  · rename_i short
    rw [parseIpAddress, if_neg short]
    exact SafeParser.start.run (zero_notMem_cString address)

end PhpDriver
