namespace PhpDriver

/-! `php_driver_parse_class_name` of `util/types.c`. Characters are those of the C locale,
and a byte may be read behind the end of the validator. -/

def isalnum (c : UInt8) : Bool :=
  (0x30 ≤ c && c ≤ 0x39) || (0x41 ≤ c && c ≤ 0x5A) || (0x61 ≤ c && c ≤ 0x7A)

def isletter (ch : UInt8) : Bool :=
  isalnum ch || ch == 0x2E

namespace Punctuation

def parenOpen : UInt8 := 0x28

def parenClose : UInt8 := 0x29

def comma : UInt8 := 0x2C

def colon : UInt8 := 0x3A

end Punctuation

open Punctuation

inductive Token where
  | illegal (character : UInt8)
  | parenOpen
  | parenClose
  | comma
  | colon
  | name (name : List UInt8)
  | endOfString
deriving DecidableEq

def nextToken : List UInt8 → Token × List UInt8
  | [] => (.endOfString, [])
  | c :: cs =>
      if isalnum c then (.name ((c :: cs).takeWhile isletter), (c :: cs).dropWhile isletter)
      else if c = 0 then (.endOfString, c :: cs)
      else if c = parenOpen then (.parenOpen, cs)
      else if c = parenClose then (.parenClose, cs)
      else if c = comma then (.comma, cs)
      else if c = colon then (.colon, cs)
      else (.illegal c, c :: cs)

def Token.describe : Token → String
  | .illegal _ => "illegal character"
  | .parenOpen => "opening parenthesis"
  | .parenClose => "closing parenthesis"
  | .comma => "comma"
  | .colon => "colon"
  | .name _ => "alphanumeric character"
  | .endOfString => "end of string"

/-- The two exceptions, which also quote the validator. -/
inductive ParseError where
  /-- `Illegal character "%c" at position %d in "%s"`. -/
  | illegal (character : UInt8) (position : Int)
  /-- `Unexpected %s at position %d in string "%s", expected ` and what was expected. -/
  | unexpected (token : String) (position : Int) (expected : String)
deriving DecidableEq

structure ParseNode where
  parent : Option Nat := none
  name : Option (List UInt8) := none
  firstChild : Option Nat := none
  lastChild : Option Nat := none
  nextSibling : Option Nat := none
  prevSibling : Option Nat := none
deriving DecidableEq

inductive ParserPhase where
  | className
  | afterClass
  | afterParens
deriving DecidableEq

structure ParserState where
  phase : ParserPhase := .className
  nodes : List ParseNode := [{}]
  node : Option Nat := some 0
deriving DecidableEq

inductive ParseStep where
  | continues (next : ParserState)
  | breaks
  | fails (expected : String)
  | nullDereference

def ParserState.at (state : ParserState) (node : Nat) : ParseNode :=
  state.nodes.getD node {}

def ParserState.openChild (state : ParserState) (node : Nat) : ParserState :=
  let child := state.nodes.length
  let last := (state.at node).lastChild
  let nodes := state.nodes.modify node fun current =>
    { current with firstChild := current.firstChild.or (some child) }
  let nodes := match last with
    | some last => nodes.modify last fun sibling => { sibling with nextSibling := some child }
    | none => nodes
  let nodes := nodes.modify node fun current => { current with lastChild := some child }
  { phase := .className, nodes := nodes ++ [{ parent := some node, prevSibling := last }],
    node := some child }

def ParserState.nextSibling (state : ParserState) (node parent : Nat) : ParserState :=
  let child := state.nodes.length
  let nodes := state.nodes.modify node fun current =>
    { current with nextSibling := some child }
  let nodes := nodes.modify parent fun current => { current with lastChild := some child }
  { phase := .className, nodes := nodes ++ [{ parent := some parent, prevSibling := some node }],
    node := some child }

def ParserState.named (state : ParserState) (node : Nat) (name : List UInt8) : ParserState :=
  { state with
    phase := .afterClass
    nodes := state.nodes.modify node fun current => { current with name := some name } }

def ParserState.parent (state : ParserState) : Option (Nat × Option Nat) :=
  state.node.map fun node => (node, (state.at node).parent)

def afterParensToken (state : ParserState) : Token → ParseStep
  | .comma =>
      match state.parent with
      | none => .nullDereference
      | some (_, none) => .fails "end of string"
      | some (node, some parent) => .continues (state.nextSibling node parent)
  | .parenClose =>
      match state.parent with
      | none => .nullDereference
      | some (_, none) => .fails "end of string"
      | some (_, some parent) => .continues { state with node := some parent }
  | .endOfString => .breaks
  | .illegal _ | .parenOpen | .colon | .name _ =>
      .fails "a comma, a closing parenthesis or an end of string"

def afterClassToken (state : ParserState) : Token → ParseStep
  | .parenOpen =>
      match state.node with
      | none => .nullDereference
      | some node => .continues (state.openChild node)
  | .comma | .colon =>
      match state.parent with
      | some (node, some parent) => .continues (state.nextSibling node parent)
      -- `node->parent->last_child`
      | _ => .nullDereference
  | .parenClose =>
      match state.parent with
      | none => .nullDereference
      | some (_, parent) => .continues { state with phase := .afterParens, node := parent }
  | .endOfString => .breaks
  | .illegal _ | .name _ => .fails "opening/closing parenthesis or comma"

def classToken (state : ParserState) : Token → ParseStep
  | .name name =>
      match state.node with
      | none => .nullDereference
      | some node => .continues (state.named node name)
  | .illegal _ | .parenOpen | .parenClose | .comma | .colon | .endOfString =>
      .fails "fully qualified class name"

def parseToken (state : ParserState) (token : Token) : ParseStep :=
  match state.phase with
  | .afterParens => afterParensToken state token
  | .afterClass => afterClassToken state token
  | .className => classToken state token

inductive ParseResult where
  | success (nodes : List ParseNode)
  | failure (error : ParseError)
  | nullDereference
deriving DecidableEq

theorem length_nextToken_lt {str : List UInt8} {token : Token} {rest : List UInt8}
    (next : nextToken str = (token, rest)) (more : token ≠ .endOfString)
    (legal : ∀ character, token ≠ .illegal character) : rest.length < str.length := by
  cases str with
  | nil =>
      obtain ⟨rfl, rfl⟩ := Prod.mk.inj next
      exact absurd rfl more
  | cons c cs =>
      rw [nextToken] at next
      split at next
      · rename_i alnum
        obtain ⟨rfl, rfl⟩ := Prod.mk.inj next
        have letter : isletter c = true := by simp [isletter, alnum]
        rw [List.dropWhile_cons_of_pos letter, List.length_cons]
        exact Nat.lt_succ_of_le (List.dropWhile_sublist _).length_le
      · grind

theorem parseToken_of_stop {state next : ParserState} {token : Token}
    (step : parseToken state token = .continues next) :
    token ≠ .endOfString ∧ ∀ character, token ≠ .illegal character := by
  constructor
  · rintro rfl
    cases phase : state.phase <;>
      simp [parseToken, phase, afterParensToken, afterClassToken, classToken] at step
  · rintro character rfl
    cases phase : state.phase <;>
      simp [parseToken, phase, afterParensToken, afterClassToken, classToken] at step

def parseLoop (validatorLen : Nat) (state : ParserState) (str : List UInt8) : ParseResult :=
  match next : nextToken str with
  | (.illegal character, rest) =>
      .failure (.illegal character (validatorLen - rest.length - 1))
  | (token, rest) =>
      match step : parseToken state token with
      | .continues after => parseLoop validatorLen after rest
      | .breaks => .success state.nodes
      | .fails expected =>
          .failure (.unexpected token.describe (validatorLen - rest.length - 1) expected)
      | .nullDereference => .nullDereference
termination_by str.length
decreasing_by
  obtain ⟨more, legal⟩ := parseToken_of_stop step
  exact length_nextToken_lt next more legal

def parseClassName (validator : List UInt8) : ParseResult :=
  parseLoop validator.length {} validator

end PhpDriver
