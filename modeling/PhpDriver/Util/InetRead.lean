import PhpDriver.Util.InetGrammar

namespace PhpDriver

open Data

/-! Where `php_driver_parse_ip_address` has come to in a text, and the dotted quad that it can
end with. -/

variable {input : List UInt8}

theorem parseAddressLoop_continues {parser next : AddressParser}
    (step : parser.step input = .continues next) :
    parseAddressLoop input parser = parseAddressLoop input next := by
  rw [parseAddressLoop]
  split
  · rename_i other taken
    obtain rfl := AddressStep.continues.inj (step.symm.trans taken)
    rfl
  · rename_i other taken
    cases step.symm.trans taken
  · rename_i other taken
    cases step.symm.trans taken

theorem parseAddressLoop_breaks {parser last : AddressParser}
    (step : parser.step input = .breaks last) : parseAddressLoop input parser = last.finish := by
  rw [parseAddressLoop]
  split
  · rename_i other taken
    cases step.symm.trans taken
  · rename_i other taken
    obtain rfl := AddressStep.breaks.inj (step.symm.trans taken)
    rfl
  · rename_i other taken
    cases step.symm.trans taken

theorem parseAddressLoop_fails {parser : AddressParser} {result : List UInt8}
    {error : AddressError} (step : parser.step input = .fails error) :
    parseAddressLoop input parser ≠ .ok result := by
  rw [parseAddressLoop]
  split
  · rename_i other taken
    cases step.symm.trans taken
  · rename_i other taken
    cases step.symm.trans taken
  · simp

def padded (bytes : List UInt8) : List UInt8 :=
  bytes ++ List.replicate (16 - bytes.length) 0

theorem padded_put {bytes : List UInt8} (room : bytes.length < 16) (byte : UInt8) :
    (padded bytes).set bytes.length byte = padded (bytes ++ [byte]) := by
  have zeros : 16 - bytes.length = 16 - (bytes ++ [byte]).length + 1 := by
    rw [List.length_append, List.length_singleton]
    omega
  rw [padded, zeros, List.replicate_succ, List.set_append_right _ _ (Nat.le_refl _),
    Nat.sub_self, List.set_cons_zero, padded, List.append_assoc, List.singleton_append]

theorem padded_takeBack {bytes : List UInt8} (room : bytes.length < 16) (byte : UInt8) :
    (padded (bytes ++ [byte])).set bytes.length 0 = padded bytes := by
  have zeros : 16 - bytes.length = 16 - (bytes ++ [byte]).length + 1 := by
    rw [List.length_append, List.length_singleton]
    omega
  rw [padded, padded, zeros, List.append_assoc, List.set_append_right _ _ (Nat.le_refl _),
    Nat.sub_self, List.singleton_append, List.set_cons_zero, List.replicate_succ]

namespace AddressParser

structure At (input bytes : List UInt8) (compress : Option Nat) (ipv4 : Bool)
    (rest : List UInt8) (parser : AddressParser) : Prop where
  rest : input.drop parser.inPtr = rest
  pos : parser.pos = bytes.length - 1
  compressPos : parser.compressPos = compress.elim (-1) Nat.cast
  address : parser.address = padded bytes
  isIpv4 : parser.isIpv4 = ipv4
  within : ∀ place ∈ compress, place ≤ bytes.length

variable {parser : AddressParser} {bytes rest : List UInt8} {compress : Option Nat} {ipv4 : Bool}

theorem At.put (here : At input bytes compress ipv4 rest parser) (room : bytes.length < 16)
    (byte : UInt8) : At input (bytes ++ [byte]) compress ipv4 rest (parser.put byte) := by
  have place : (parser.pos + 1).toNat = bytes.length := by
    rw [here.pos]
    omega
  refine ⟨here.rest, ?_, here.compressPos, ?_, here.isIpv4, ?_⟩
  · simp only [AddressParser.put, here.pos, List.length_append, List.length_singleton]
    omega
  · rw [AddressParser.put, place, here.address, padded_put room]
  · intro place member
    have within := here.within place member
    rw [List.length_append]
    omega

theorem At.takeBack {byte : UInt8} (here : At input (bytes ++ [byte]) compress ipv4 rest parser)
    (room : bytes.length < 16) (within : ∀ place ∈ compress, place ≤ bytes.length) :
    At input bytes compress ipv4 rest parser.takeBack := by
  have place : parser.pos.toNat = bytes.length := by
    rw [here.pos, List.length_append, List.length_singleton]
    omega
  refine ⟨here.rest, ?_, here.compressPos, ?_, here.isIpv4, within⟩
  · simp only [AddressParser.takeBack, here.pos, List.length_append, List.length_singleton]
    omega
  · rw [AddressParser.takeBack, place, here.address, padded_takeBack room]

@[simp] theorem advance_state (token : List UInt8) :
    (parser.advance token).state = parser.state := rfl

@[simp] theorem advance_pos (token : List UInt8) : (parser.advance token).pos = parser.pos := rfl

@[simp] theorem advance_ipv4Pos (token : List UInt8) :
    (parser.advance token).ipv4Pos = parser.ipv4Pos := rfl

theorem At.advance {token tail : List UInt8}
    (here : At input bytes compress ipv4 rest parser) (left : rest.drop token.length = tail) :
    At input bytes compress ipv4 tail (parser.advance token) := by
  refine ⟨?_, here.pos, here.compressPos, here.address, here.isIpv4, here.within⟩
  rw [← left, ← here.rest, List.drop_drop]
  rfl

theorem move_last (front back : List UInt8) (byte : UInt8) (zeros : Nat) :
    let address := front ++ byte :: (List.replicate zeros 0 ++ 0 :: back)
    (address.set (front.length + zeros + 1) (address.getD front.length 0)).set front.length 0 =
      front ++ List.replicate (zeros + 1) 0 ++ byte :: back := by
  have place : front.length + zeros + 1 - front.length = zeros + 1 := by omega
  simp only [List.getD_eq_getElem?_getD, List.getElem?_append_right (Nat.le_refl _), Nat.sub_self,
    List.getElem?_cons_zero, Option.getD_some]
  rw [List.set_append_right (front.length + zeros + 1) byte (by omega), place,
    List.set_cons_succ, List.set_append_right zeros byte (by simp), List.length_replicate,
    Nat.sub_self, List.set_cons_zero, List.set_append_right front.length 0 (Nat.le_refl _),
    Nat.sub_self, List.set_cons_zero, List.replicate_succ, List.append_assoc, List.cons_append]

/-- What has not been moved yet is before the zeros, the rest behind them. -/
theorem foldl_moveByte {left right : List UInt8} {zeros : Nat}
    (full : left.length + right.length + (zeros + 1) = 16) (moves : Nat)
    (some : moves ≤ right.length) :
    (List.range moves).foldl (moveByte left.length right.length)
        (left ++ right ++ List.replicate (zeros + 1) 0) =
      left ++ right.take (right.length - moves) ++ List.replicate (zeros + 1) 0 ++
        right.drop (right.length - moves) := by
  induction moves with
  | zero => simp
  | succ moves ih =>
      obtain ⟨place, there⟩ : ∃ place, right.length - moves = place + 1 :=
        ⟨right.length - moves - 1, by omega⟩
      have inside : place < right.length := by omega
      have src : left.length + right.length - moves - 1 = (left ++ right.take place).length := by
        rw [List.length_append, List.length_take]
        omega
      have dst : inetV6Length - moves - 1 =
          (left ++ right.take place).length + zeros + 1 := by
        rw [List.length_append, List.length_take, inetV6Length]
        omega
      have before : left ++ right.take (place + 1) ++ List.replicate (zeros + 1) 0 ++
          right.drop (place + 1) = (left ++ right.take place) ++
            right[place] :: (List.replicate zeros 0 ++ 0 :: right.drop (place + 1)) := by
        rw [List.take_succ_eq_append_getElem inside, List.replicate_succ']
        simp only [List.append_assoc, List.cons_append, List.nil_append]
      have behind : right.length - (moves + 1) = place := by omega
      rw [List.range_succ, List.foldl_concat, ih (by omega), there, before, behind]
      simp only [moveByte, src, dst]
      rw [move_last, List.drop_eq_getElem_cons inside]

theorem inflate_eq {left right : List UInt8} (room : left.length + right.length < 16) :
    inflate left.length right.length (padded (left ++ right)) =
      left ++ List.replicate (16 - (left ++ right).length) 0 ++ right := by
  obtain ⟨zeros, count⟩ : ∃ zeros, 16 - (left ++ right).length = zeros + 1 :=
    ⟨15 - (left ++ right).length, by rw [List.length_append]; omega⟩
  have full : left.length + right.length + (zeros + 1) = 16 := by
    rw [List.length_append] at count
    omega
  rw [inflate, padded, count, foldl_moveByte full right.length (Nat.le_refl _)]
  simp

theorem At.finish_iff {quad : Bool} {result : List UInt8}
    (here : At input bytes compress ipv4 rest parser)
    (flag : ipv4 = (quad && compress.isNone && bytes.length == 4)) :
    parser.finish = .ok result ↔ finishBytes quad bytes compress = some result := by
  obtain ⟨-, pos, compressPos, address, isIpv4, within⟩ := here
  rw [flag] at isIpv4
  cases compress with
  | none =>
      simp only [Option.elim_none] at compressPos
      simp only [Option.isNone_none, Bool.and_true] at isIpv4
      rw [finish, finishBytes]
      cases ipv4 : parser.isIpv4 with
      | true =>
          simp only [ipv4, Bool.true_eq, Bool.and_eq_true, beq_iff_eq] at isIpv4
          rw [if_pos rfl, if_pos isIpv4, address, padded, inetV4Length,
            List.take_append_of_le_length (by omega), List.take_of_length_le (by omega)]
          simp
      | false =>
          have notQuad : ¬(quad = true ∧ bytes.length = 4) := by
            rintro ⟨rfl, four⟩
            simp [ipv4, four] at isIpv4
          rw [if_neg Bool.false_ne_true, if_neg (by simp [compressPos]), if_neg notQuad, pos,
            inetV6Length, address]
          by_cases full : bytes.length = 16
          · rw [if_neg (by omega), if_neg (by omega), if_pos full, padded, full]
            simp
          · rw [if_neg full]
            by_cases less : bytes.length < 16
            · rw [if_pos (by omega)]
              simp
            · rw [if_neg (by omega), if_pos (by omega)]
              simp
  | some place =>
      simp only [Option.elim_some] at compressPos
      simp only [Option.isNone_some, Bool.and_false, Bool.false_and] at isIpv4
      have inside := within place rfl
      rw [finish, isIpv4, if_neg Bool.false_ne_true, compressPos, if_pos (by omega), pos,
        inetV6Length, finishBytes, address]
      by_cases less : bytes.length < 16
      · rw [if_neg (by omega), if_pos less]
        by_cases last : place = bytes.length
        · rw [if_neg (by omega), last, List.take_length, List.drop_length, padded]
          simp
        · have moved : ((bytes.length : Int) - 1 + 1 - place).toNat = (bytes.drop place).length := by
            rw [List.length_drop]
            omega
          have start : (place : Int).toNat = (bytes.take place).length := by
            rw [List.length_take]
            omega
          have inflated := @inflate_eq (bytes.take place) (bytes.drop place)
            (by rw [← List.length_append, List.take_append_drop]; exact less)
          rw [List.take_append_drop] at inflated
          rw [if_pos (by omega), moved, start, inflated]
          simp
      · rw [if_pos (by omega), if_neg less]
        simp

theorem numberType_cases (number : List UInt8) :
    numberType number = .hex ∨ numberType number = .dec := by
  unfold numberType
  split
  · exact .inr rfl
  · exact .inl rfl

theorem tokenize_number (number : numberOf rest ≠ []) :
    ipAddressTokenize rest = (numberType (numberOf rest), (numberOf rest).map tolower) := by
  cases rest with
  | nil => exact absurd rfl number
  | cons char tail =>
      have digit : isXDigit char = true := by
        cases digit : isXDigit char with
        | false => simp [numberOf, tokenMaxLen, digit] at number
        | true => rfl
      rw [ipAddressTokenize, if_pos digit]

theorem type_of_number {type : AddressToken} {token : List UInt8} (number : numberOf rest ≠ [])
    (read : ipAddressTokenize rest = (type, token)) : type = .hex ∨ type = .dec := by
  rw [tokenize_number number] at read
  rw [← (Prod.mk.inj read).1]
  exact numberType_cases (numberOf rest)

theorem tokenize_colon (rest : List UInt8) :
    ipAddressTokenize (':'.toUInt8 :: rest) = (.colon, [':'.toUInt8]) := by
  rw [ipAddressTokenize, if_neg (by decide), if_pos rfl]

theorem tokenize_dot (rest : List UInt8) :
    ipAddressTokenize ('.'.toUInt8 :: rest) = (.dot, ['.'.toUInt8]) := by
  rw [ipAddressTokenize, if_neg (by decide), if_neg (by decide), if_pos rfl]

inductive Starts (rest : List UInt8) : Prop
  | nothing (empty : rest = [])
  | number {tail : List UInt8} (isGroup : IsGroup (numberOf rest))
      (split : rest = numberOf rest ++ tail)
  | colon {tail : List UInt8} (same : rest = ':'.toUInt8 :: tail)
  | dot {tail : List UInt8} (same : rest = '.'.toUInt8 :: tail)
  | illegal {token : List UInt8} (read : ipAddressTokenize rest = (.illegal, token))

theorem starts (rest : List UInt8) : Starts rest := by
  cases rest with
  | nil => exact .nothing rfl
  | cons char tail =>
      by_cases digit : isXDigit char = true
      · obtain ⟨isGroup, tail, split⟩ := @numberOf_spec (char :: tail) char rfl digit
        exact .number isGroup split
      · by_cases colon : char = ':'.toUInt8
        · exact .colon (by rw [colon])
        · by_cases dot : char = '.'.toUInt8
          · exact .dot (by rw [dot])
          · exact .illegal (by rw [ipAddressTokenize, if_neg digit, if_neg colon, if_neg dot])

theorem step_of_token (here : At input bytes compress ipv4 rest parser) {type : AddressToken}
    {token : List UInt8} (read : ipAddressTokenize rest = (type, token))
    (legal : type ≠ .illegal) :
    parser.step input = (parser.advance token).readToken type token := by
  rw [step, here.rest, read]
  exact if_neg legal

theorem step_illegal (here : At input bytes compress ipv4 rest parser) {token : List UInt8}
    (read : ipAddressTokenize rest = (.illegal, token)) :
    ∃ error, parser.step input = .fails error := by
  rw [step, here.rest, read]
  exact ⟨_, rfl⟩

theorem not_ok_of_illegal (here : At input bytes compress ipv4 rest parser) {token result : List UInt8}
    (read : ipAddressTokenize rest = (.illegal, token)) :
    parseAddressLoop input parser ≠ .ok result := by
  obtain ⟨error, fails⟩ := step_illegal here read
  exact parseAddressLoop_fails fails

theorem rest_of_end {token : List UInt8} (read : ipAddressTokenize rest = (.endOfAddress, token)) :
    rest = [] := by
  cases starts rest with
  | nothing empty => exact empty
  | number isGroup split => simpa using type_of_number isGroup.nonempty read
  | colon same => simp [same, tokenize_colon] at read
  | dot same => simp [same, tokenize_dot] at read
  | illegal other => simp [other] at read

theorem rest_of_colon {token : List UInt8} (read : ipAddressTokenize rest = (.colon, token)) :
    token = [':'.toUInt8] ∧ ∃ tail, rest = ':'.toUInt8 :: tail := by
  cases starts rest with
  | nothing empty => simp [empty, ipAddressTokenize] at read
  | number isGroup split => simpa using type_of_number isGroup.nonempty read
  | @colon tail same =>
      rw [same, tokenize_colon] at read
      exact ⟨(Prod.mk.inj read).2.symm, tail, same⟩
  | dot same => simp [same, tokenize_dot] at read
  | illegal other => simp [other] at read

theorem rest_of_dot {token : List UInt8} (read : ipAddressTokenize rest = (.dot, token)) :
    token = ['.'.toUInt8] ∧ ∃ tail, rest = '.'.toUInt8 :: tail := by
  cases starts rest with
  | nothing empty => simp [empty, ipAddressTokenize] at read
  | number isGroup split => simpa using type_of_number isGroup.nonempty read
  | colon same => simp [same, tokenize_colon] at read
  | @dot tail same =>
      rw [same, tokenize_dot] at read
      exact ⟨(Prod.mk.inj read).2.symm, tail, same⟩
  | illegal other => simp [other] at read

theorem step_of_ok (here : At input bytes compress ipv4 rest parser) {result : List UInt8}
    (ok : parseAddressLoop input parser = .ok result) :
    ∃ type token, ipAddressTokenize rest = (type, token) ∧
      parser.step input = (parser.advance token).readToken type token := by
  cases read : ipAddressTokenize rest with
  | mk type token =>
      refine ⟨type, token, rfl, step_of_token here read ?_⟩
      rintro rfl
      exact not_ok_of_illegal here read ok

theorem loop_atEnd_iff {quad : Bool} {result : List UInt8}
    (here : At input bytes compress ipv4 rest parser) (state : parser.state = .atEnd)
    (flag : ipv4 = (quad && compress.isNone && bytes.length == 4)) :
    parseAddressLoop input parser = .ok result ↔
      rest = [] ∧ finishBytes quad bytes compress = some result := by
  constructor
  · intro ok
    obtain ⟨type, token, read, step⟩ := step_of_ok here ok
    rw [readToken, advance_state, state] at step
    simp only [endToken] at step
    split at step
    · rename_i atEnd
      subst atEnd
      obtain rfl := rest_of_end read
      rw [parseAddressLoop_breaks step] at ok
      exact ⟨rfl, ((here.advance rfl).finish_iff flag).mp ok⟩
    · exact absurd ok (parseAddressLoop_fails step)
  · rintro ⟨rfl, finished⟩
    have step := step_of_token here rfl (by simp)
    rw [readToken, advance_state, state] at step
    rw [parseAddressLoop_breaks step]
    exact ((here.advance rfl).finish_iff flag).mpr finished

theorem dot_of_ok {result : List UInt8} (here : At input bytes compress ipv4 rest parser)
    (state : parser.state = .ipv4Dot) (ok : parseAddressLoop input parser = .ok result) :
    ∃ tail, rest = '.'.toUInt8 :: tail := by
  obtain ⟨type, token, read, step⟩ := step_of_ok here ok
  rw [readToken, advance_state, state] at step
  simp only [ipv4DotToken] at step
  split at step
  · rename_i dot
    subst dot
    exact (rest_of_dot read).2
  · exact absurd ok (parseAddressLoop_fails step)

theorem step_dot {tail : List UInt8}
    (here : At input bytes compress ipv4 ('.'.toUInt8 :: tail) parser)
    (state : parser.state = .ipv4Dot) :
    ∃ next, parser.step input = .continues next ∧ At input bytes compress ipv4 tail next ∧
      next.state = .ipv4Byte ∧ next.ipv4Pos = parser.ipv4Pos := by
  have step := step_of_token here (tokenize_dot tail) (by simp)
  have there := here.advance (rfl : ('.'.toUInt8 :: tail).drop ['.'.toUInt8].length = tail)
  rw [readToken, advance_state, state] at step
  refine ⟨_, step, ?_, rfl, rfl⟩
  exact ⟨there.rest, there.pos, there.compressPos, there.address, there.isIpv4, there.within⟩

theorem tokenize_octet {octet : UInt8} (number : numberOf rest = DecimalText.ofNat octet.toNat) :
    ipAddressTokenize rest = (.dec, DecimalText.ofNat octet.toNat) := by
  have digits := DecimalText.allDigits_ofNat octet.toNat
  have nonempty : numberOf rest ≠ [] := by
    rw [number]
    exact DecimalText.ofNat_ne_nil _
  rw [tokenize_number nonempty, number, map_tolower digits, numberType,
    if_pos (List.all_eq_true.mpr digits)]

theorem step_octet {octet : UInt8} (here : At input bytes compress false rest parser)
    (state : parser.state = .ipv4Byte)
    (number : numberOf rest = DecimalText.ofNat octet.toNat) (room : bytes.length < 16) :
    ∃ next, parser.step input = .continues next ∧ next.ipv4Pos = parser.ipv4Pos + 1 ∧
      next.state = (if parser.ipv4Pos + 1 = 4 then .atEnd else .ipv4Dot) ∧
      At input (bytes ++ [octet]) compress
        (parser.ipv4Pos + 1 = 4 && compress.isNone && (bytes ++ [octet]).length == 4)
        (rest.drop (DecimalText.ofNat octet.toNat).length) next := by
  have advanced := here.advance (rfl :
    rest.drop (DecimalText.ofNat octet.toNat).length = _)
  rw [step_of_token here (tokenize_octet number) (by simp)]
  generalize reached : parser.advance (DecimalText.ofNat octet.toNat) = read at advanced ⊢
  have sameState : read.state = .ipv4Byte := by rw [← reached, ← state]; rfl
  have samePos : read.ipv4Pos = parser.ipv4Pos := by rw [← reached]; rfl
  have plain : ¬(1 < (DecimalText.ofNat octet.toNat).length ∧
      (DecimalText.ofNat octet.toNat).head? = some '0'.toUInt8) :=
    fun zero => octet_plain octet zero.1 zero.2
  have small : ¬255 < octet.toNat := by
    have bound := octet.toNat_lt
    omega
  have fits : ¬read.pos + 2 > inetV6Length := by
    rw [advanced.pos, inetV6Length]
    omega
  have counted : At input bytes compress false
      (rest.drop (DecimalText.ofNat octet.toNat).length)
      { read with ipv4Pos := read.ipv4Pos + 1 } :=
    ⟨advanced.rest, advanced.pos, advanced.compressPos, advanced.address, advanced.isIpv4,
      advanced.within⟩
  have written := counted.put room octet
  rw [readToken, sameState]
  simp only [ipv4ByteToken, if_true, if_neg plain, DecimalText.toNat_ofNat, if_neg small,
    if_neg fits, UInt8.ofNat_toNat]
  rw [← samePos]
  by_cases last : read.ipv4Pos + 1 = 4
  · refine ⟨_, if_pos last, rfl, by rw [if_pos last], ?_⟩
    refine ⟨written.rest, written.pos, written.compressPos, written.address, ?_, written.within⟩
    rw [decide_eq_true last, Bool.true_and, written.compressPos, written.pos, inetV4Length]
    cases compress with
    | none =>
        simp only [List.length_append, List.length_singleton, Option.elim_none, true_and,
          Option.isNone_none, Bool.true_and]
        rw [Bool.eq_iff_iff, decide_eq_true_iff, beq_iff_eq]
        omega
    | some place => simp
  · refine ⟨_, if_neg last, rfl, by rw [if_neg last], ?_⟩
    refine ⟨written.rest, written.pos, written.compressPos, written.address, ?_, written.within⟩
    rw [decide_eq_false last]
    exact written.isIpv4

theorem finish_of_overflow {last : AddressParser} {result : List UInt8}
    (compressPos : last.compressPos = compress.elim (-1) Nat.cast) (isIpv4 : last.isIpv4 = false)
    (pos : 16 < last.pos + 1) : last.finish ≠ .ok result := by
  rw [finish, isIpv4, if_neg Bool.false_ne_true, compressPos, inetV6Length]
  cases compress with
  | none => rw [Option.elim_none, if_neg (by omega), if_neg (by omega), if_pos (by omega)]; simp
  | some place => rw [Option.elim_some, if_pos (by omega), if_pos (by omega)]; simp

theorem octet_of_ok {result : List UInt8} (here : At input bytes compress false rest parser)
    (state : parser.state = .ipv4Byte) (ok : parseAddressLoop input parser = .ok result) :
    bytes.length < 16 ∧ ∃ (octet : UInt8) (tail : List UInt8), numberOf rest = DecimalText.ofNat octet.toNat ∧
      rest = DecimalText.ofNat octet.toNat ++ tail := by
  have takes : ∀ type token, ipAddressTokenize rest = (type, token) → type ≠ .illegal →
      parser.step input = (parser.advance token).ipv4ByteToken type token := by
    intro type token read legal
    rw [step_of_token here read legal, readToken, advance_state, state]
  cases starts rest with
  | nothing empty =>
      subst empty
      exact absurd ok (parseAddressLoop_fails (takes _ _ rfl (by simp)))
  | colon same =>
      subst same
      exact absurd ok (parseAddressLoop_fails (takes _ _ (tokenize_colon _) (by simp)))
  | dot same =>
      subst same
      exact absurd ok (parseAddressLoop_fails (takes _ _ (tokenize_dot _) (by simp)))
  | illegal read => exact absurd ok (not_ok_of_illegal here read)
  | @number tail isGroup split =>
      have read := tokenize_number isGroup.nonempty
      rw [numberType] at read
      cases digits : (numberOf rest).all DecimalText.isDigit with
      | false =>
          rw [digits] at read
          exact absurd ok (parseAddressLoop_fails (takes _ _ read (by simp)))
      | true =>
          have allDigits : DecimalText.AllDigits (numberOf rest) := List.all_eq_true.mp digits
          rw [if_pos digits, map_tolower allDigits] at read
          have step := takes _ _ read (by simp)
          rw [ipv4ByteToken, if_pos rfl] at step
          by_cases zero : 1 < (numberOf rest).length ∧ (numberOf rest).head? = some '0'.toUInt8
          · rw [if_pos zero] at step
            exact absurd ok (parseAddressLoop_fails step)
          · rw [if_neg zero] at step
            by_cases large : 255 < DecimalText.toNat (numberOf rest)
            · simp only [if_pos large] at step
              exact absurd ok (parseAddressLoop_fails step)
            · have octet := octet_of_number isGroup allDigits zero (by omega)
              refine ⟨?_, _, tail, octet, by rw [← octet]; exact split⟩
              by_contra full
              have pos : (parser.advance (numberOf rest)).pos + 2 > inetV6Length := by
                rw [advance_pos, here.pos, inetV6Length]
                omega
              simp only [if_neg large, if_pos pos] at step
              rw [parseAddressLoop_breaks step] at ok
              refine @finish_of_overflow compress _ _ ?_ ?_ ?_ ok
              · exact here.compressPos
              · exact here.isIpv4
              · rw [inetV6Length] at pos
                show 16 < (parser.advance (numberOf rest)).pos + 1 + 1
                omega

theorem octets_of_ok {count : Nat} {result : List UInt8}
    (ipv4Pos : parser.ipv4Pos + (count + 1) = 4) (here : At input bytes compress false rest parser)
    (state : parser.state = .ipv4Byte) (ok : parseAddressLoop input parser = .ok result) :
    ∃ octets, Octets (count + 1) rest octets ∧
      finishBytes true (bytes ++ octets) compress = some result := by
  induction count generalizing parser bytes rest with
  | zero =>
      obtain ⟨room, octet, tail, number, rfl⟩ := octet_of_ok here state ok
      obtain ⟨next, step, _, nextState, there⟩ := step_octet here state number room
      rw [if_pos (by omega)] at nextState
      rw [parseAddressLoop_continues step] at ok
      rw [List.drop_left] at there
      obtain ⟨rfl, finished⟩ := (loop_atEnd_iff there nextState
        (by rw [decide_eq_true (by omega)])).mp ok
      exact ⟨[octet], by rw [List.append_nil]; exact .last octet, finished⟩
  | succ count ih =>
      obtain ⟨room, octet, tail, number, rfl⟩ := octet_of_ok here state ok
      obtain ⟨next, step, nextPos, nextState, there⟩ := step_octet here state number room
      rw [if_neg (by omega)] at nextState
      rw [parseAddressLoop_continues step] at ok
      rw [List.drop_left, decide_eq_false (by omega)] at there
      obtain ⟨tail, rfl⟩ := dot_of_ok there nextState ok
      obtain ⟨last, step, behind, lastState, lastPos⟩ := step_dot there nextState
      rw [parseAddressLoop_continues step] at ok
      obtain ⟨octets, read, finished⟩ := ih (by omega) behind lastState ok
      exact ⟨octet :: octets, .dot octet read, by rw [List.append_cons]; exact finished⟩

theorem ok_of_octets {count : Nat} {octets result : List UInt8} (read : Octets count rest octets)
    (ipv4Pos : parser.ipv4Pos + count = 4) (here : At input bytes compress false rest parser)
    (state : parser.state = .ipv4Byte) (room : (bytes ++ octets).length ≤ 16)
    (finished : finishBytes true (bytes ++ octets) compress = some result) :
    parseAddressLoop input parser = .ok result := by
  induction read generalizing parser bytes with
  | last octet =>
      have number : numberOf (DecimalText.ofNat octet.toNat) = DecimalText.ofNat octet.toNat := by
        have isGroup := isGroup_octet octet
        simpa using numberOf_append isGroup.short isGroup.digits Ends.nil
      simp only [List.length_append, List.length_singleton] at room
      obtain ⟨next, step, _, nextState, there⟩ := step_octet here state number (by omega)
      rw [if_pos (by omega)] at nextState
      rw [List.drop_length] at there
      rw [parseAddressLoop_continues step]
      exact (loop_atEnd_iff there nextState (by rw [decide_eq_true (by omega)])).mpr
        ⟨rfl, finished⟩
  | @dot octet count text octets rest ih =>
      have number : numberOf (DecimalText.ofNat octet.toNat ++ '.'.toUInt8 :: text) =
          DecimalText.ofNat octet.toNat := by
        have isGroup := isGroup_octet octet
        exact numberOf_append isGroup.short isGroup.digits (Ends.dot text)
      have more : 0 < count := by
        cases rest <;> omega
      simp only [List.length_append, List.length_cons] at room
      obtain ⟨next, step, nextPos, nextState, there⟩ := step_octet here state number (by omega)
      rw [if_neg (by omega)] at nextState
      rw [List.drop_left, decide_eq_false (by omega)] at there
      rw [parseAddressLoop_continues step]
      obtain ⟨last, step, behind, lastState, lastPos⟩ := step_dot there nextState
      rw [parseAddressLoop_continues step]
      rw [List.append_cons] at finished
      exact ih (by omega) behind lastState (by simp; omega) finished

end AddressParser

end PhpDriver
