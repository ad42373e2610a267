import PhpDriver.Util.InetRead

namespace PhpDriver

open Data

/-! The texts that `php_driver_parse_ip_address` accepts. -/

namespace AddressParser

variable {input bytes rest : List UInt8} {parser : AddressParser} {compress : Option Nat}
  {ipv4 : Bool}

def Expects (parser : AddressParser) : Prop :=
  parser.state = .field ∨ parser.state = .start ∨ parser.state = .afterColon

theorem readToken_number (expects : parser.Expects) {type : AddressToken}
    (number : type = .hex ∨ type = .dec) (token : List UInt8) :
    parser.readToken type token = parser.fieldToken type token := by
  have some : type ≠ .endOfAddress := by
    rintro rfl
    simp at number
  have noColon : type ≠ .colon := by
    rintro rfl
    simp at number
  rcases expects with state | state | state
  · rw [readToken, state]
  · rw [readToken, state]
    simp only [startToken, fieldToken, if_neg noColon, if_pos number, some, false_and, if_false]
  · rw [readToken, state]
    simp only [afterColonToken, fieldToken, if_neg noColon, if_pos number, some, false_and,
      if_false]

theorem step_field (here : At input bytes compress ipv4 rest parser)
    (expects : parser.Expects) (isGroup : IsGroup (numberOf rest)) :
    parser.step input = (parser.advance ((numberOf rest).map tolower)).fieldToken
      (numberType (numberOf rest)) ((numberOf rest).map tolower) := by
  have number := numberType_cases (numberOf rest)
  have legal : numberType (numberOf rest) ≠ .illegal := by
    intro illegal
    simp [illegal] at number
  have advanced : (parser.advance ((numberOf rest).map tolower)).Expects := expects
  rw [step_of_token here (tokenize_number isGroup.nonempty) legal]
  exact readToken_number advanced number _

theorem fieldToken_number {type : AddressToken} (number : type = .hex ∨ type = .dec)
    (token : List UInt8) (room : parser.pos + 3 ≤ 16) :
    parser.fieldToken type token =
      .continues ((put { parser with state := if type = .hex then .afterHex else .afterDec }
        (UInt8.ofNat (scanHex token / 256))).put (UInt8.ofNat (scanHex token))) := by
  have some : ¬(type = .endOfAddress ∧ parser.pos + 1 = parser.compressPos) := by
    rintro ⟨rfl, _⟩
    simp at number
  have fits : ¬parser.pos + 3 > inetV6Length := by
    rw [inetV6Length]
    omega
  rw [fieldToken, if_neg some, if_pos number]
  exact if_neg fits

theorem fieldToken_full {type : AddressToken} (number : type = .hex ∨ type = .dec)
    (token : List UInt8) (full : 16 < parser.pos + 3) :
    parser.fieldToken type token =
      .breaks { parser with
        state := if type = .hex then .afterHex else .afterDec
        pos := parser.pos + 2 } := by
  have some : ¬(type = .endOfAddress ∧ parser.pos + 1 = parser.compressPos) := by
    rintro ⟨rfl, _⟩
    simp at number
  rw [fieldToken, if_neg some, if_pos number]
  exact if_pos full

theorem step_number (here : At input bytes compress ipv4 rest parser)
    (expects : parser.Expects) (isGroup : IsGroup (numberOf rest)) (room : bytes.length + 2 ≤ 16) :
    ∃ next, parser.step input = .continues next ∧
      At input (bytes ++ groupBytes (numberOf rest)) compress ipv4
        (rest.drop (numberOf rest).length) next ∧
      next.state = (if numberType (numberOf rest) = .hex then .afterHex else .afterDec) ∧
      next.tokenLen = (numberOf rest).length ∧
      next.inPtr = parser.inPtr + (numberOf rest).length := by
  have step := step_field here expects isGroup
  have length : ((numberOf rest).map tolower).length = (numberOf rest).length :=
    List.length_map tolower
  have advanced := here.advance (rfl : rest.drop ((numberOf rest).map tolower).length = _)
  rw [fieldToken_number (numberType_cases _) _ (by rw [advanced.pos]; omega),
    scanHex_map_tolower] at step
  have marked : At input bytes compress ipv4 (rest.drop (numberOf rest).length)
      { parser.advance ((numberOf rest).map tolower) with
        state := if numberType (numberOf rest) = .hex then .afterHex else .afterDec } := by
    rw [length] at advanced
    exact ⟨advanced.rest, advanced.pos, advanced.compressPos, advanced.address, advanced.isIpv4,
      advanced.within⟩
  have written := (marked.put (by omega) (UInt8.ofNat (hexNumber (numberOf rest) / 256))).put
    (by simp; omega) (UInt8.ofNat (hexNumber (numberOf rest)))
  refine ⟨_, step, ?_, rfl, ?_, ?_⟩
  · have low : UInt8.ofNat (hexNumber (numberOf rest)) =
        UInt8.ofNat (hexNumber (numberOf rest) % 256) := by
      apply UInt8.toNat_inj.mp
      simp
    rw [groupBytes, ← low, List.append_cons]
    exact written
  · show (((numberOf rest).map tolower).length : Int) = _
    rw [length]
  · show parser.inPtr + ((numberOf rest).map tolower).length = _
    rw [length]

theorem not_ok_of_full (here : At input bytes compress false rest parser)
    (expects : parser.Expects) (isGroup : IsGroup (numberOf rest))
    (full : ¬bytes.length + 2 ≤ 16) {result : List UInt8} :
    parseAddressLoop input parser ≠ .ok result := by
  have step := step_field here expects isGroup
  have pos := here.pos
  rw [fieldToken_full (numberType_cases _) _ (by rw [advance_pos, pos]; omega)] at step
  rw [parseAddressLoop_breaks step]
  refine @finish_of_overflow compress _ _ ?_ ?_ ?_
  · exact here.compressPos
  · exact here.isIpv4
  · show 16 < parser.pos + 2 + 1
    omega

/-- Where no field has been read since the colons or the start, the text may also end. -/
structure Ready (bytes : List UInt8) (compress : Option Nat) (rest : List UInt8)
    (parser : AddressParser) : Prop where
  expects : parser.Expects
  fresh : parser.state = .field ∨ compress ≠ some bytes.length ∧ rest.head? ≠ some ':'.toUInt8

theorem At.compressPos_iff (here : At input bytes compress ipv4 rest parser) :
    parser.pos + 1 = parser.compressPos ↔ compress = some bytes.length := by
  rw [here.pos, here.compressPos]
  cases compress with
  | none => simp
  | some place => simp [eq_comm]

theorem fieldToken_other {type : AddressToken} (number : ¬(type = .hex ∨ type = .dec))
    (some : ¬(type = .endOfAddress ∧ parser.pos + 1 = parser.compressPos)) (token : List UInt8) :
    parser.fieldToken type token = parser.expecting type "an address field" := by
  rw [fieldToken, if_neg some, if_neg number]

theorem step_nothing (here : At input bytes compress ipv4 [] parser)
    (ready : Ready bytes compress [] parser) :
    if compress = some bytes.length then parser.step input = .breaks (parser.advance [0])
    else ∃ error, parser.step input = .fails error := by
  have step := step_of_token here rfl (by simp)
  have place := (here.advance (rfl : ([] : List UInt8).drop [(0 : UInt8)].length = [])).compressPos_iff
  rw [readToken, advance_state] at step
  split
  · rename_i atColons
    have state : parser.state = .field := by
      rcases ready.fresh with state | ⟨different, _⟩
      · exact state
      · exact absurd atColons different
    rw [step, state]
    simp only [fieldToken, place, atColons, and_self, if_true]
  · rename_i elsewhere
    rw [step]
    rcases ready.expects with state | state | state
    · rw [state]
      exact ⟨_, fieldToken_other (by simp) (fun atColons => elsewhere (place.mp atColons.2)) _⟩
    · rw [state]
      exact ⟨_, rfl⟩
    · rw [state]
      exact ⟨_, @fieldToken_other { parser.advance [0] with state := .field } .endOfAddress
        (by simp) (fun atColons => elsewhere (place.mp atColons.2)) [0]⟩

theorem field_of_ok {result : List UInt8} (here : At input bytes compress false rest parser)
    (ready : Ready bytes compress rest parser) (ok : parseAddressLoop input parser = .ok result) :
    (rest = [] ∧ compress = some bytes.length ∧
        finishBytes false bytes compress = some result) ∨
      bytes.length + 2 ≤ 16 ∧ IsGroup (numberOf rest) ∧
        ∃ tail, rest = numberOf rest ++ tail := by
  cases starts rest with
  | @number tail isGroup split =>
      refine .inr ⟨?_, isGroup, tail, split⟩
      by_contra full
      exact not_ok_of_full here ready.expects isGroup full ok
  | illegal read => exact absurd ok (not_ok_of_illegal here read)
  | nothing empty =>
      subst empty
      have step := step_nothing here ready
      split at step
      · rename_i atColons
        rw [parseAddressLoop_breaks step] at ok
        exact .inl ⟨rfl, atColons, ((here.advance rfl).finish_iff (by simp)).mp ok⟩
      · obtain ⟨error, fails⟩ := step
        exact absurd ok (parseAddressLoop_fails fails)
  | dot same =>
      subst same
      have step := step_of_token here (tokenize_dot _) (by simp)
      rw [readToken, advance_state] at step
      rcases ready.expects with state | state | state
      · rw [state] at step
        simp only [fieldToken_other, reduceCtorEq, or_self, false_and, not_false_iff] at step
        exact absurd ok (parseAddressLoop_fails step)
      · rw [state] at step
        exact absurd ok (parseAddressLoop_fails step)
      · rw [state] at step
        exact absurd ok (parseAddressLoop_fails step)
  | colon same =>
      subst same
      have step := step_of_token here (tokenize_colon _) (by simp)
      rw [readToken, advance_state] at step
      rcases ready.fresh with state | ⟨_, noColon⟩
      · rw [state] at step
        exact absurd ok (parseAddressLoop_fails step)
      · exact absurd rfl noColon

def AfterNumber (parser : AddressParser) : Prop :=
  parser.state = .afterHex ∨ parser.state = .afterDec

theorem tail_of_ok {result : List UInt8} (here : At input bytes compress ipv4 rest parser)
    (number : parser.AfterNumber) (ok : parseAddressLoop input parser = .ok result) :
    rest = [] ∨ (∃ tail, rest = ':'.toUInt8 :: tail) ∨
      parser.state = .afterDec ∧ ∃ tail, rest = '.'.toUInt8 :: tail := by
  obtain ⟨type, token, read, step⟩ := step_of_ok here ok
  rw [readToken, advance_state] at step
  rcases number with state | state
  · rw [state] at step
    simp only [afterHexToken] at step
    split at step
    · rename_i atEnd
      subst atEnd
      exact .inl (rest_of_end read)
    · split at step
      · rename_i colon
        subst colon
        exact .inr (.inl (rest_of_colon read).2)
      · exact absurd ok (parseAddressLoop_fails step)
  · rw [state] at step
    simp only [afterDecToken] at step
    split at step
    · rename_i atEnd
      subst atEnd
      exact .inl (rest_of_end read)
    · split at step
      · rename_i colon
        subst colon
        exact .inr (.inl (rest_of_colon read).2)
      · split at step
        · rename_i dot
          subst dot
          exact .inr (.inr ⟨state, (rest_of_dot read).2⟩)
        · exact absurd ok (parseAddressLoop_fails step)

theorem loop_end_iff {result : List UInt8} (here : At input bytes compress false [] parser)
    (number : parser.AfterNumber) :
    parseAddressLoop input parser = .ok result ↔
      finishBytes false bytes compress = some result := by
  have step := step_of_token here rfl (by simp)
  have last : parser.step input = .breaks (parser.advance [0]) := by
    rw [step, readToken, advance_state]
    rcases number with state | state
    · rw [state]
      rfl
    · rw [state]
      rfl
  rw [parseAddressLoop_breaks last]
  exact (here.advance rfl).finish_iff rfl

theorem step_colon {tail : List UInt8}
    (here : At input bytes compress ipv4 (':'.toUInt8 :: tail) parser)
    (number : parser.AfterNumber) :
    ∃ next, parser.step input = .continues next ∧ At input bytes compress ipv4 tail next ∧
      next.state = .afterColon := by
  have there := here.advance (rfl : (':'.toUInt8 :: tail).drop [':'.toUInt8].length = tail)
  have step : parser.step input =
      .continues { parser.advance [':'.toUInt8] with state := .afterColon } := by
    rw [step_of_token here (tokenize_colon tail) (by simp), readToken, advance_state]
    rcases number with state | state
    · rw [state]
      rfl
    · rw [state]
      rfl
  refine ⟨_, step, ?_, rfl⟩
  exact ⟨there.rest, there.pos, there.compressPos, there.address, there.isIpv4, there.within⟩

theorem step_compressed {tail : List UInt8}
    (here : At input bytes none ipv4 (':'.toUInt8 :: tail) parser)
    (state : parser.state = .afterColon ∨ parser.state = .compressed) :
    ∃ next, parser.step input = .continues next ∧
      At input bytes (some bytes.length) ipv4 tail next ∧ next.state = .field := by
  have there := here.advance (rfl : (':'.toUInt8 :: tail).drop [':'.toUInt8].length = tail)
  have without : (parser.advance [':'.toUInt8]).compressPos = -1 := there.compressPos
  have step : parser.step input = .continues { parser.advance [':'.toUInt8] with
      compressPos := if parser.pos = -1 then 0 else parser.pos + 1
      state := .field } := by
    rw [step_of_token here (tokenize_colon tail) (by simp), readToken, advance_state]
    rcases state with state | state
    · rw [state]
      simp only [afterColonToken, compressedToken, if_true, without, ne_eq, not_true, if_false]
      rfl
    · rw [state]
      simp only [compressedToken, if_true, without, ne_eq, not_true, if_false]
      rfl
  refine ⟨_, step, ⟨there.rest, there.pos, ?_, there.address, there.isIpv4, ?_⟩, rfl⟩
  · show (if parser.pos = -1 then 0 else parser.pos + 1) = _
    rw [here.pos, Option.elim_some]
    split <;> omega
  · intro place member
    obtain rfl := Option.some.inj member
    exact Nat.le_refl _

theorem not_ok_of_duplicate {tail result : List UInt8} {place : Nat}
    (here : At input bytes (some place) ipv4 (':'.toUInt8 :: tail) parser)
    (state : parser.state = .afterColon) : parseAddressLoop input parser ≠ .ok result := by
  have there := here.advance (rfl : (':'.toUInt8 :: tail).drop [':'.toUInt8].length = tail)
  have some : (parser.advance [':'.toUInt8]).compressPos ≠ -1 := by
    rw [there.compressPos, Option.elim_some]
    omega
  have step := step_of_token here (tokenize_colon tail) (by simp)
  rw [readToken, advance_state, state] at step
  simp only [afterColonToken, compressedToken, if_true, some, ne_eq, not_false_iff] at step
  exact parseAddressLoop_fails step

theorem read_group {group tail : List UInt8} (number : numberOf (group ++ tail) = group)
    (here : At input bytes compress ipv4 (group ++ tail) parser) (expects : parser.Expects)
    (isGroup : IsGroup group) (room : bytes.length + 2 ≤ 16) :
    ∃ next, parseAddressLoop input parser = parseAddressLoop input next ∧
      At input (bytes ++ groupBytes group) compress ipv4 tail next ∧ next.AfterNumber ∧
      (numberType group = .dec → next.state = .afterDec) ∧ next.tokenLen = group.length ∧
      next.inPtr = parser.inPtr + group.length := by
  obtain ⟨next, step, there, state, tokenLen, inPtr⟩ :=
    step_number here expects (by rw [number]; exact isGroup) room
  rw [number] at there state tokenLen inPtr
  rw [List.drop_left] at there
  refine ⟨next, parseAddressLoop_continues step, there, ?_, ?_, tokenLen, inPtr⟩
  · rw [AfterNumber, state]
    split
    · exact .inl rfl
    · exact .inr rfl
  · intro dec
    rw [state, dec]
    rfl

theorem step_rollback {start next : AddressParser} {group tail : List UInt8}
    (begin : At input bytes compress ipv4 (group ++ '.'.toUInt8 :: tail) start)
    (room : bytes.length + 2 ≤ 16)
    (here : At input (bytes ++ groupBytes group) compress ipv4 ('.'.toUInt8 :: tail) next)
    (state : next.state = .afterDec) (tokenLen : next.tokenLen = group.length)
    (inPtr : next.inPtr = start.inPtr + group.length) :
    ∃ last, next.step input = .continues last ∧
      At input bytes compress ipv4 (group ++ '.'.toUInt8 :: tail) last ∧
      last.state = .ipv4Byte ∧ last.ipv4Pos = 0 := by
  have there := here.advance (rfl : ('.'.toUInt8 :: tail).drop ['.'.toUInt8].length = tail)
  have step := step_of_token here (tokenize_dot tail) (by simp)
  rw [readToken, advance_state, state] at step
  rw [groupBytes, List.append_cons] at there
  have above : ∀ place ∈ compress,
      place ≤ (bytes ++ [UInt8.ofNat (hexNumber group / 256)]).length := by
    intro place member
    have within := begin.within place member
    rw [List.length_append]
    omega
  have back := (there.takeBack (by simp; omega) above).takeBack (by omega) begin.within
  have length : (next.advance ['.'.toUInt8]).prevTokenLen = group.length := by
    show (if next.tokenLen > -1 then next.tokenLen else next.prevTokenLen) = _
    rw [tokenLen, if_pos (by omega)]
  refine ⟨_, step, ⟨?_, back.pos, back.compressPos, back.address, back.isIpv4, back.within⟩, rfl,
    rfl⟩
  rw [← begin.rest]
  congr 1
  show next.inPtr + 1 - ((next.advance ['.'.toUInt8]).prevTokenLen + 1).toNat = _
  rw [length, inPtr]
  omega

theorem reads_of_ok {result : List UInt8} (here : At input bytes compress false rest parser)
    (ready : Ready bytes compress rest parser) (ok : parseAddressLoop input parser = .ok result) :
    ∃ more after quad, ReadsFields compress bytes.length rest more after quad ∧
      finishBytes quad (bytes ++ more) after = some result := by
  induction length : rest.length using Nat.strongRecOn generalizing parser bytes compress rest with
  | ind length ih =>
      rcases field_of_ok here ready ok with ⟨rfl, rfl, finished⟩ | ⟨room, isGroup, tail, split⟩
      · exact ⟨[], some bytes.length, false, .nothing _, by rw [List.append_nil]; exact finished⟩
      · generalize same : numberOf rest = group at isGroup split
        subst split
        obtain ⟨next, step, there, number, _, tokenLen, inPtr⟩ :=
          read_group same here ready.expects isGroup room
        have count : (bytes ++ groupBytes group).length = bytes.length + 2 := by
          rw [List.length_append]
          rfl
        rw [step] at ok
        rcases tail_of_ok there number ok with rfl | ⟨tail, rfl⟩ | ⟨dec, tail, rfl⟩
        · rw [List.append_nil]
          exact ⟨groupBytes group, compress, false, .last compress _ isGroup,
            (loop_end_iff there number).mp ok⟩
        · obtain ⟨last, step, behind, lastState⟩ := step_colon there number
          rw [parseAddressLoop_continues step] at ok
          rw [List.length_append, List.length_cons] at length
          by_cases second : tail.head? = some ':'.toUInt8
          · obtain ⟨tail, rfl⟩ := List.head?_eq_some_iff.mp second
            rw [List.length_cons] at length
            cases compress with
            | some place => exact absurd ok (not_ok_of_duplicate behind lastState)
            | none =>
                obtain ⟨field, step, behind, fieldState⟩ := step_compressed behind (.inl lastState)
                rw [parseAddressLoop_continues step] at ok
                obtain ⟨more, after, quad, read, finished⟩ :=
                  ih tail.length (by omega) behind ⟨.inl fieldState, .inl fieldState⟩ ok rfl
                rw [count] at read
                rw [List.append_assoc] at finished
                exact ⟨_, after, quad, .double isGroup read, finished⟩
          · have elsewhere : compress ≠ some (bytes ++ groupBytes group).length := by
              intro there
              have within := here.within _ there
              omega
            have ready : Ready (bytes ++ groupBytes group) compress tail last :=
              ⟨.inr (.inr lastState), .inr ⟨elsewhere, second⟩⟩
            have nonempty : tail ≠ [] := by
              rintro rfl
              rcases field_of_ok behind ready ok with ⟨_, there, _⟩ | ⟨_, isGroup, _⟩
              · exact elsewhere there
              · exact isGroup.nonempty rfl
            obtain ⟨more, after, quad, read, finished⟩ :=
              ih tail.length (by omega) behind ready ok rfl
            rw [count] at read
            rw [List.append_assoc] at finished
            exact ⟨_, after, quad, .colon isGroup read nonempty, finished⟩
        · obtain ⟨last, step, behind, lastState, lastPos⟩ :=
            step_rollback here room there dec tokenLen inPtr
          rw [parseAddressLoop_continues step] at ok
          have counted : last.ipv4Pos + ((3 : Nat) + 1) = 4 := by
            rw [lastPos]
            rfl
          obtain ⟨octets, read, finished⟩ := octets_of_ok counted behind lastState ok
          exact ⟨octets, compress, true, .quad compress _ read, finished⟩

theorem finishBytes_length {quad : Bool} {after : Option Nat} {result : List UInt8}
    (finished : finishBytes quad bytes after = some result) : bytes.length ≤ 16 := by
  cases after with
  | none =>
      rw [finishBytes] at finished
      split at finished
      · omega
      · split at finished
        · omega
        · cases finished
  | some place =>
      rw [finishBytes] at finished
      split at finished
      · omega
      · cases finished

theorem head_of_group {group : List UInt8} (isGroup : IsGroup group) (tail : List UInt8) :
    (group ++ tail).head? ≠ some ':'.toUInt8 := by
  cases group with
  | nil => exact absurd rfl isGroup.nonempty
  | cons char group =>
      intro colon
      obtain rfl := Option.some.inj colon
      exact absurd (isGroup.digits _ List.mem_cons_self) (by decide)

theorem head_of_reads {after : Option Nat} {count : Nat} {quad : Bool} {more : List UInt8}
    (read : ReadsFields compress count rest more after quad) : rest.head? ≠ some ':'.toUInt8 := by
  cases read with
  | nothing count => simp
  | last compress count isGroup =>
      rw [← List.append_nil rest]
      exact head_of_group isGroup []
  | quad compress count octets =>
      cases octets with
      | dot octet rest => exact head_of_group (isGroup_octet octet) _
  | colon isGroup read nonempty => exact head_of_group isGroup _
  | double isGroup read => exact head_of_group isGroup _

theorem ok_of_reads {count : Nat} {more result : List UInt8} {after : Option Nat} {quad : Bool}
    (read : ReadsFields compress count rest more after quad) (length : bytes.length = count)
    (here : At input bytes compress false rest parser) (ready : Ready bytes compress rest parser)
    (finished : finishBytes quad (bytes ++ more) after = some result) :
    parseAddressLoop input parser = .ok result := by
  induction read generalizing parser bytes with
  | nothing count =>
      subst length
      have step := step_nothing here ready
      rw [if_pos rfl] at step
      rw [parseAddressLoop_breaks step]
      rw [List.append_nil] at finished
      exact ((here.advance rfl).finish_iff rfl).mpr finished
  | @last compress count group isGroup =>
      have room := finishBytes_length finished
      rw [List.length_append] at room
      have number := numberOf_append isGroup.short isGroup.digits Ends.nil
      rw [← List.append_nil group] at here
      obtain ⟨next, step, there, afterNumber, _⟩ :=
        read_group number here ready.expects isGroup room
      rw [step]
      exact (loop_end_iff there afterNumber).mpr finished
  | @quad compress count text octets isQuad =>
      have room := finishBytes_length finished
      rw [List.length_append, isQuad.length.1] at room
      cases isQuad with
      | @dot octet _ text octets rest =>
          have isGroup := isGroup_octet octet
          have number := numberOf_append isGroup.short isGroup.digits (Ends.dot text)
          obtain ⟨next, step, there, _, dec, tokenLen, inPtr⟩ :=
            read_group number here ready.expects isGroup (by omega)
          have state : next.state = .afterDec := by
            apply dec
            rw [numberType, if_pos (List.all_eq_true.mpr (DecimalText.allDigits_ofNat _))]
          obtain ⟨last, rolled, behind, lastState, lastPos⟩ :=
            step_rollback here (by omega) there state tokenLen inPtr
          rw [step, parseAddressLoop_continues rolled]
          exact ok_of_octets (.dot octet rest) (by rw [lastPos]; rfl) behind lastState
            (finishBytes_length finished) finished
  | @colon compress after count quad group text more isGroup read nonempty ih =>
      have room := finishBytes_length finished
      rw [List.length_append, List.length_append] at room
      have number := numberOf_append isGroup.short isGroup.digits (Ends.colon text)
      have two : (groupBytes group).length = 2 := rfl
      obtain ⟨next, step, there, afterNumber, _⟩ :=
        read_group number here ready.expects isGroup (by omega)
      obtain ⟨last, colon, behind, state⟩ := step_colon there afterNumber
      rw [step, parseAddressLoop_continues colon]
      have elsewhere : compress ≠ some (bytes ++ groupBytes group).length := by
        intro there
        have within := here.within _ there
        rw [List.length_append] at within
        omega
      rw [← List.append_assoc] at finished
      exact ih (by rw [List.length_append]; omega) behind
        ⟨.inr (.inr state), .inr ⟨elsewhere, head_of_reads read⟩⟩ finished
  | @double after count quad group text more isGroup read ih =>
      have room := finishBytes_length finished
      rw [List.length_append, List.length_append] at room
      have number := numberOf_append isGroup.short isGroup.digits
        (Ends.colon (':'.toUInt8 :: text))
      have two : (groupBytes group).length = 2 := rfl
      obtain ⟨next, step, there, afterNumber, _⟩ :=
        read_group number here ready.expects isGroup (by omega)
      obtain ⟨last, colon, behind, state⟩ := step_colon there afterNumber
      obtain ⟨field, colons, behind, fieldState⟩ := step_compressed behind (.inl state)
      rw [step, parseAddressLoop_continues colon, parseAddressLoop_continues colons]
      have length : (bytes ++ groupBytes group).length = count + 2 := by
        rw [List.length_append]
        omega
      rw [length] at behind
      rw [← List.append_assoc] at finished
      exact ih length behind ⟨.inl fieldState, .inl fieldState⟩ finished

theorem step_start_colon {tail : List UInt8}
    (here : At input bytes compress ipv4 (':'.toUInt8 :: tail) parser)
    (state : parser.state = .start) :
    ∃ next, parser.step input = .continues next ∧ At input bytes compress ipv4 tail next ∧
      next.state = .compressed := by
  have there := here.advance (rfl : (':'.toUInt8 :: tail).drop [':'.toUInt8].length = tail)
  have step := step_of_token here (tokenize_colon tail) (by simp)
  rw [readToken, advance_state, state] at step
  refine ⟨_, step, ?_, rfl⟩
  exact ⟨there.rest, there.pos, there.compressPos, there.address, there.isIpv4, there.within⟩

theorem colon_of_ok {result : List UInt8} (here : At input bytes compress ipv4 rest parser)
    (state : parser.state = .compressed) (ok : parseAddressLoop input parser = .ok result) :
    ∃ tail, rest = ':'.toUInt8 :: tail := by
  obtain ⟨type, token, read, step⟩ := step_of_ok here ok
  rw [readToken, advance_state, state] at step
  simp only [compressedToken] at step
  split at step
  · rename_i colon
    subst colon
    exact (rest_of_colon read).2
  · exact absurd ok (parseAddressLoop_fails step)

theorem loop_start_iff {result : List UInt8} (here : At input [] none false rest parser)
    (state : parser.state = .start) :
    parseAddressLoop input parser = .ok result ↔ ReadsAddress rest result := by
  by_cases first : rest.head? = some ':'.toUInt8
  · obtain ⟨tail, rfl⟩ := List.head?_eq_some_iff.mp first
    obtain ⟨next, step, there, nextState⟩ := step_start_colon here state
    rw [parseAddressLoop_continues step]
    constructor
    · intro ok
      obtain ⟨tail, rfl⟩ := colon_of_ok there nextState ok
      obtain ⟨field, step, behind, fieldState⟩ := step_compressed there (.inr nextState)
      rw [parseAddressLoop_continues step] at ok
      obtain ⟨more, after, quad, read, finished⟩ :=
        reads_of_ok behind ⟨.inl fieldState, .inl fieldState⟩ ok
      exact ⟨more, after, quad, finished, .inr ⟨tail, rfl, read⟩⟩
    · rintro ⟨more, after, quad, finished, read | ⟨text, same, read⟩⟩
      · exact absurd first (head_of_reads read)
      · obtain rfl := (List.cons.inj same).2
        obtain ⟨field, step, behind, fieldState⟩ := step_compressed there (.inr nextState)
        rw [parseAddressLoop_continues step]
        exact ok_of_reads read rfl behind ⟨.inl fieldState, .inl fieldState⟩ finished
  · have ready : Ready [] none rest parser := ⟨.inr (.inl state), .inr ⟨by simp, first⟩⟩
    constructor
    · intro ok
      obtain ⟨more, after, quad, read, finished⟩ := reads_of_ok here ready ok
      exact ⟨more, after, quad, finished, .inl read⟩
    · rintro ⟨more, after, quad, finished, read | ⟨text, rfl, read⟩⟩
      · exact ok_of_reads read rfl here ready finished
      · exact absurd rfl first

end AddressParser

/-- Exactly the textual forms of addresses are accepted, as the bytes they denote. -/
theorem parseIpAddress_iff (address bytes : List UInt8) :
    parseIpAddress address = .ok bytes ↔ IsAddress (cString address) bytes := by
  have here : AddressParser.At (cString address) [] none false (cString address) {} :=
    ⟨rfl, rfl, rfl, rfl, rfl, by simp⟩
  have loop : parseAddressLoop (cString address) {} = .ok bytes ↔
      IsAddress (cString address) bytes := by
    rw [isAddress_iff]
    exact AddressParser.loop_start_iff here rfl
  rw [parseIpAddress]
  split
  · refine ⟨by simp, ?_⟩
    intro denotes
    have short := denotes.length_le
    omega
  · exact loop

end PhpDriver
