import PhpDriver.Util.ParsedTypes

namespace PhpDriver

open ClassTree Punctuation

/-! The nodes of `php_driver_parse_class_name`, as they are allocated and given back. -/

abbrev NodeHeap := List (Option ParseNode)

namespace NodeHeap

def read (heap : NodeHeap) (address : Nat) : Option ParseNode :=
  heap[address]?.join

def write (heap : NodeHeap) (address : Nat) (change : ParseNode → ParseNode) : Option NodeHeap :=
  (heap.read address).map fun node => heap.set address (some (change node))

def efree (heap : NodeHeap) (address : Nat) : Option NodeHeap :=
  (heap.read address).map fun _ => heap.set address none

def freeThrough (free : NodeHeap → Nat → Option NodeHeap) (heap : NodeHeap) (address : Nat)
    (clear : ParseNode → ParseNode) : Option Nat → Option NodeHeap
  | none => some heap
  | some target => do
      let heap ← free heap target
      heap.write address clear

section

variable (before after : NodeHeap) (node : ParseNode)

theorem read_append : read (before ++ some node :: after) before.length = some node := by
  simp [read]

theorem write_append (change : ParseNode → ParseNode) :
    write (before ++ some node :: after) before.length change =
      some (before ++ some (change node) :: after) := by
  rw [write, read_append, Option.map_some, List.set_append_right _ _ (Nat.le_refl _),
    Nat.sub_self, List.set_cons_zero]

theorem efree_append :
    efree (before ++ some node :: after) before.length = some (before ++ none :: after) := by
  rw [efree, read_append, Option.map_some, List.set_append_right _ _ (Nat.le_refl _),
    Nat.sub_self, List.set_cons_zero]

end

end NodeHeap

/-- `php_driver_parse_node_free`, with as many nested calls as there may be. There is no result
if a node is used that is not there. -/
def parseNodeFree : Nat → NodeHeap → Nat → Option NodeHeap
  | 0, _, _ => none
  | calls + 1, heap, address => do
      let found ← heap.read address
      let heap ← heap.freeThrough (parseNodeFree calls) address
        (fun node => { node with firstChild := none }) found.firstChild
      let heap ← heap.write address fun node => { node with lastChild := none }
      let found ← heap.read address
      let heap ← heap.freeThrough (parseNodeFree calls) address
        (fun node => { node with nextSibling := none }) found.nextSibling
      heap.efree address

def ParserState.heap (state : ParserState) : NodeHeap :=
  state.nodes.map some

def freeRoot (heap : NodeHeap) : Option NodeHeap :=
  parseNodeFree heap.length heap 0

/-- An unexpected token. Behind a closing parenthesis `EXPECTING_TOKEN` stands alone. -/
def ParserState.refuse (state : ParserState) (error : ParseError) :
    Option (ParseResult × NodeHeap) :=
  match state.phase with
  | .afterParens => some (.failure error, state.heap)
  | .afterClass | .className => (freeRoot state.heap).map fun heap => (.failure error, heap)

/-- `php_driver_parse_class_name`, with the nodes it leaves. -/
def parseLoopMemory (validatorLen : Nat) (state : ParserState) (str : List UInt8) :
    Option (ParseResult × NodeHeap) :=
  match next : nextToken str with
  | (.illegal character, rest) =>
      (freeRoot state.heap).map fun heap =>
        (.failure (.illegal character (validatorLen - rest.length - 1)), heap)
  | (token, rest) =>
      match step : parseToken state token with
      | .continues after => parseLoopMemory validatorLen after rest
      | .breaks => some (.success state.nodes, state.heap)
      | .fails expected =>
          state.refuse (.unexpected token.describe (validatorLen - rest.length - 1) expected)
      | .nullDereference => none
termination_by str.length
decreasing_by
  obtain ⟨more, legal⟩ := parseToken_of_stop step
  exact length_nextToken_lt next more legal

/-- `php_driver_parse_column_type`, with the nodes it leaves. -/
def parseColumnTypeMemory (validator : List UInt8) : Option (ColumnResult × NodeHeap) :=
  match parseLoopMemory validator.length {} validator with
  | none => none
  | some (.nullDereference, _) => none
  | some (.failure error, heap) => some (.failure error, heap)
  | some (.success nodes, heap) =>
      match nodesFrom nodes nodes.length (some 0) with
      | [] => (freeRoot heap).map fun heap => (.invalidType, heap)
      | root :: siblings =>
          match columnType false false root siblings with
          | .undefined => none
          | result => (freeRoot heap).map fun heap => (result, heap)

/-! Giving back a row of siblings, with all that is below them. -/

def rowNodes (parent prev : Option Nat) (others : Nat) (base : Nat) (tree : ClassTree)
    (rest : List ClassTree) : List ParseNode :=
  tree.nodes parent prev (if rest.isEmpty then none else some (base + tree.size)) base ++
    childNodes others (some base) none (base + tree.size) rest

theorem childNodes_eq_rowNodes (parent : Nat) (prev : Option Nat) (base : Nat)
    (tree : ClassTree) (rest : List ClassTree) :
    childNodes parent prev none base (tree :: rest) =
      rowNodes (some parent) prev parent base tree rest := by
  rw [childNodes, rowNodes]

/-- A row of no more than so many nodes is given back from its first node on. -/
def FreesRows (free : NodeHeap → Nat → Option NodeHeap) (most : Nat) : Prop :=
  ∀ (parent prev : Option Nat) (others : Nat) (tree : ClassTree) (rest : List ClassTree)
    (before after : NodeHeap), tree.size + sizes rest ≤ most →
    free (before ++ ((rowNodes parent prev others before.length tree rest).map some ++ after))
        before.length =
      some (before ++ (List.replicate (tree.size + sizes rest) none ++ after))

/-- The row that a link leads to, if any, which begins behind a gap. A link without one is clear
already. -/
theorem freeThrough_row {free : NodeHeap → Nat → Option NodeHeap} {most : Nat}
    (frees : FreesRows free most) (before gap after : NodeHeap) (node : ParseNode)
    (clear : ParseNode → ParseNode) (parent : Nat) (prev : Option Nat) (trees : List ClassTree)
    (enough : sizes trees ≤ most) (cleared : trees = [] → clear node = node) :
    NodeHeap.freeThrough free
        (before ++ some node :: (gap ++
          ((childNodes parent prev none (before.length + 1 + gap.length) trees).map some ++
            after)))
        before.length clear
        (if trees.isEmpty then none else some (before.length + 1 + gap.length)) =
      some (before ++ some (clear node) ::
        (gap ++ (List.replicate (sizes trees) none ++ after))) := by
  cases trees with
  | nil => simp [NodeHeap.freeThrough, childNodes, sizes, cleared]
  | cons tree rest =>
      have length : (before ++ some node :: gap).length = before.length + 1 + gap.length := by
        simp [Nat.add_assoc, Nat.add_comm 1]
      have freed := frees (some parent) prev parent tree rest (before ++ some node :: gap) after
        enough
      rw [length, List.append_assoc, List.cons_append] at freed
      rw [childNodes_eq_rowNodes]
      simp only [List.isEmpty_cons, Bool.false_eq_true, if_false, NodeHeap.freeThrough, freed,
        Option.bind_eq_bind, Option.bind_some, List.append_assoc, List.cons_append,
        NodeHeap.write_append, sizes]

/-- The induction is on the calls, of which there are enough for what is below and behind. -/
theorem parseNodeFree_row (calls : Nat) : FreesRows (parseNodeFree calls) calls := by
  induction calls with
  | zero =>
      rintro parent prev others ⟨name, children⟩ rest before after enough
      rw [size] at enough
      omega
  | succ calls ih =>
      rintro parent prev others ⟨name, children⟩ rest before after enough
      rw [size] at enough
      rw [parseNodeFree, rowNodes, nodes]
      simp only [List.cons_append, List.map_cons, List.map_append, List.append_assoc,
        NodeHeap.read_append, Option.bind_eq_bind, Option.bind_some]
      have below := @freeThrough_row _ _ ih before []
      simp only [List.length_nil, Nat.add_zero, List.nil_append] at below
      rw [below _ _ _ _ _ _ (by omega) (by rintro rfl; rfl)]
      have behind := @freeThrough_row _ _ ih before (List.replicate (sizes children) none) after
      have length : before.length + 1 + sizes children =
          before.length + (ClassTree.node name children).size := by
        rw [size, Nat.add_assoc]
      rw [List.length_replicate, length] at behind
      simp only [Option.bind_some, NodeHeap.write_append, NodeHeap.read_append]
      rw [behind _ _ _ _ _ (by omega) (by rintro rfl; rfl), Option.bind_some,
        NodeHeap.efree_append, size, Nat.add_assoc, Nat.add_comm 1, List.replicate_succ,
        List.replicate_add, List.cons_append, List.append_assoc]

def ParseNode.unnamed (node : ParseNode) : ParseNode :=
  { node with name := none }

namespace NodeHeap

def unnamed (heap : NodeHeap) : NodeHeap :=
  heap.map (Option.map ParseNode.unnamed)

variable (heap : NodeHeap) (address : Nat)

theorem read_unnamed :
    heap.unnamed.read address = (heap.read address).map ParseNode.unnamed := by
  rw [read, read, unnamed, List.getElem?_map]
  cases heap[address]? <;> rfl

theorem write_unnamed {change : ParseNode → ParseNode}
    (same : ∀ node, (change node).unnamed = change node.unnamed) :
    heap.unnamed.write address change = (heap.write address change).map unnamed := by
  rw [write, write, read_unnamed]
  cases heap.read address with
  | none => rfl
  | some node => simp [unnamed, List.map_set, same]

theorem efree_unnamed : heap.unnamed.efree address = (heap.efree address).map unnamed := by
  rw [efree, efree, read_unnamed]
  cases heap.read address with
  | none => rfl
  | some node => simp [unnamed, List.map_set]

theorem freeThrough_unnamed {free : NodeHeap → Nat → Option NodeHeap}
    (frees : ∀ heap address, free (unnamed heap) address = (free heap address).map unnamed)
    {clear : ParseNode → ParseNode}
    (same : ∀ node, (clear node).unnamed = clear node.unnamed) (link : Option Nat) :
    freeThrough free heap.unnamed address clear link =
      (freeThrough free heap address clear link).map unnamed := by
  cases link with
  | none => rfl
  | some target =>
      simp only [freeThrough, frees, Option.bind_eq_bind]
      cases free heap target with
      | none => rfl
      | some heap => exact write_unnamed heap address same

theorem bind_unnamed {computed : Option NodeHeap} {first second : NodeHeap → Option NodeHeap}
    (same : ∀ heap, first (unnamed heap) = (second heap).map unnamed) :
    (computed.map unnamed).bind first = (computed.bind second).map unnamed := by
  cases computed with
  | none => rfl
  | some heap => exact same heap

end NodeHeap

theorem parseNodeFree_unnamed (calls : Nat) (heap : NodeHeap) (address : Nat) :
    parseNodeFree calls heap.unnamed address =
      (parseNodeFree calls heap address).map NodeHeap.unnamed := by
  induction calls generalizing heap address with
  | zero => rfl
  | succ calls ih =>
      rw [parseNodeFree, parseNodeFree, NodeHeap.read_unnamed]
      cases heap.read address with
      | none => rfl
      | some node =>
          simp only [Option.map_some, Option.bind_eq_bind, Option.bind_some]
          rw [@NodeHeap.freeThrough_unnamed heap address _ ih
            (fun node => { node with firstChild := none }) fun _ => rfl]
          refine NodeHeap.bind_unnamed fun heap => ?_
          rw [@NodeHeap.write_unnamed heap address
            (fun node => { node with lastChild := none }) fun _ => rfl]
          refine NodeHeap.bind_unnamed fun heap => ?_
          rw [NodeHeap.read_unnamed]
          cases heap.read address with
          | none => rfl
          | some node =>
              simp only [Option.map_some, Option.bind_some]
              rw [@NodeHeap.freeThrough_unnamed heap address _ ih
                (fun node => { node with nextSibling := none }) fun _ => rfl]
              exact NodeHeap.bind_unnamed fun heap => heap.efree_unnamed address

/-! Wherever the parser stands, its nodes are those of a tree. -/

def ClassTree.heap (tree : ClassTree) : NodeHeap :=
  (tree.nodes none none none 0).map some

def NodeHeap.IsTree (heap : NodeHeap) : Prop :=
  ∃ tree : ClassTree, heap.unnamed = tree.heap.unnamed

theorem NodeHeap.eq_replicate_of_unnamed {heap : NodeHeap} {size : Nat}
    (gone : heap.unnamed = List.replicate size none) : heap = List.replicate size none := by
  rw [List.eq_replicate_iff] at gone ⊢
  rw [NodeHeap.unnamed, List.length_map] at gone
  refine ⟨gone.1, fun node member => ?_⟩
  exact Option.map_eq_none_iff.mp (gone.2 _ (List.mem_map_of_mem member))

theorem freeRoot_tree (tree : ClassTree) :
    freeRoot tree.heap = some (List.replicate tree.size none) := by
  have freed := parseNodeFree_row tree.size none none 0 tree [] [] [] (Nat.le_refl _)
  simp only [rowNodes, childNodes, List.isEmpty_nil, if_true, List.append_nil, List.nil_append,
    List.length_nil, sizes, Nat.add_zero] at freed
  rw [freeRoot, ClassTree.heap, List.length_map, length_nodes]
  exact freed

theorem NodeHeap.IsTree.freeRoot {heap : NodeHeap} (isTree : heap.IsTree) :
    freeRoot heap = some (List.replicate heap.length none) := by
  obtain ⟨tree, same⟩ := isTree
  have length : heap.length = tree.heap.length := by
    simpa only [NodeHeap.unnamed, List.length_map] using congrArg List.length same
  have size : tree.heap.length = tree.size := by
    rw [ClassTree.heap, List.length_map, length_nodes]
  have freed : (PhpDriver.freeRoot heap).map NodeHeap.unnamed =
      some (List.replicate tree.size none) := by
    have ofTree := freeRoot_tree tree
    rw [PhpDriver.freeRoot] at ofTree ⊢
    rw [← parseNodeFree_unnamed, same, length, parseNodeFree_unnamed, ofTree, Option.map_some,
      NodeHeap.unnamed, List.map_replicate, Option.map_none]
  obtain ⟨left, found, gone⟩ := Option.map_eq_some_iff.mp freed
  rw [found, length, size, NodeHeap.eq_replicate_of_unnamed gone]

theorem heap_unnamed_atName (stack : List Frame) :
    (atName stack).heap.unnamed = (atTree stack (.node [] [])).heap.unnamed := by
  simp [atName, atTree, ParserState.heap, NodeHeap.unnamed, nodes, childNodes, lastOf,
    ParseNode.unnamed]

theorem isTree_atTree (stack : List Frame) (tree : ClassTree) :
    (atTree stack tree).heap.IsTree :=
  ⟨closeAll stack tree, by rw [ParserState.heap, atTree_closeAll, ClassTree.heap]⟩

theorem Reading.isTree {validator str : List UInt8} {state : ParserState}
    (reading : Reading validator state str) : state.heap.IsTree := by
  cases reading with
  | @atName stack _ _ opens whole =>
      obtain ⟨tree, same⟩ := isTree_atTree stack (.node [] [])
      exact ⟨tree, (heap_unnamed_atName stack).trans same⟩
  | @atTree stack tree _ _ _ opens derives whole => exact isTree_atTree stack tree
  | @aboveRoot name _ isName whole => exact ⟨.node name [], rfl⟩

def ParseError.isBehindParens : ParseError → Bool
  | .illegal _ _ => false
  | .unexpected _ _ expected =>
      expected == "end of string" ||
        expected == "a comma, a closing parenthesis or an end of string"

theorem isBehindParens_of_fails {state : ParserState} {token : Token} {expected : String}
    (fails : parseToken state token = .fails expected) (description : String) (position : Int) :
    (ParseError.unexpected description position expected).isBehindParens =
      decide (state.phase = .afterParens) := by
  rw [parseToken] at fails
  cases phase : state.phase with
  | className =>
      rw [phase] at fails
      cases token with
      | name name => cases node : state.node <;> simp [classToken, node] at fails
      | _ =>
          obtain rfl := ParseStep.fails.inj fails
          rfl
  | afterClass =>
      rw [phase] at fails
      cases token with
      | name | illegal =>
          obtain rfl := ParseStep.fails.inj fails
          rfl
      | _ => grind [afterClassToken]
  | afterParens =>
      rw [phase] at fails
      cases token with
      | comma | parenClose => grind [afterParensToken, ParseError.isBehindParens]
      | endOfString => cases fails
      | _ =>
          obtain rfl := ParseStep.fails.inj fails
          rfl

inductive LoopLeaves (last : ParserState) (token : Token) :
    ParseResult → Option (ParseResult × NodeHeap) → Prop
  | breaks (step : parseToken last token = .breaks) :
      LoopLeaves last token (.success last.nodes) (some (.success last.nodes, last.heap))
  | keeps {expected : String} {error : ParseError}
      (step : parseToken last token = .fails expected)
      (legal : ∀ character, token ≠ .illegal character) (phase : last.phase = .afterParens)
      (behind : error.isBehindParens = true) :
      LoopLeaves last token (.failure error) (some (.failure error, last.heap))
  | frees {error : ParseError} (behind : error.isBehindParens = false) :
      LoopLeaves last token (.failure error)
        ((freeRoot last.heap).map fun heap => (.failure error, heap))
  | nullDereference : LoopLeaves last token .nullDereference none

section

variable {validatorLen : Nat} {state : ParserState} {str rest : List UInt8} {token : Token}

theorem parseLoopMemory_eq (next : nextToken str = (token, rest))
    (legal : ∀ character, token ≠ .illegal character) :
    parseLoopMemory validatorLen state str =
      match parseToken state token with
      | .continues after => parseLoopMemory validatorLen after rest
      | .breaks => some (.success state.nodes, state.heap)
      | .fails expected =>
          state.refuse (.unexpected token.describe (validatorLen - rest.length - 1) expected)
      | .nullDereference => none := by
  rw [parseLoopMemory]
  split
  · rename_i character _ same
    rw [next] at same
    exact absurd (Prod.mk.inj same).1 (legal character)
  · rename_i same
    rw [next] at same
    obtain ⟨rfl, rfl⟩ := Prod.mk.inj same
    split <;> simp_all

theorem parseLoopMemory_illegal {character : UInt8}
    (next : nextToken str = (.illegal character, rest)) :
    parseLoopMemory validatorLen state str =
      (freeRoot state.heap).map fun heap =>
        (.failure (.illegal character (validatorLen - rest.length - 1)), heap) := by
  rw [parseLoopMemory]
  split
  · rename_i same
    rw [next] at same
    have parts := Prod.mk.inj same
    obtain rfl := Token.illegal.inj parts.1
    rw [parts.2]
  · rename_i other same
    rw [next] at same
    exact absurd (Prod.mk.inj same).1.symm (other character)

theorem parseLoop_illegal {character : UInt8}
    (next : nextToken str = (.illegal character, rest)) :
    parseLoop validatorLen state str =
      .failure (.illegal character (validatorLen - rest.length - 1)) := by
  rw [parseLoop]
  split
  · rename_i same
    rw [next] at same
    have parts := Prod.mk.inj same
    obtain rfl := Token.illegal.inj parts.1
    rw [parts.2]
  · rename_i other same
    rw [next] at same
    exact absurd (Prod.mk.inj same).1.symm (other character)

end

theorem parseLoopMemory_reaches (validatorLen : Nat) {validator str : List UInt8}
    {state : ParserState} (reading : Reading validator state str) :
    ∃ last rest, Reading validator last rest ∧
      LoopLeaves last (nextToken rest).1 (parseLoop validatorLen state str)
        (parseLoopMemory validatorLen state str) := by
  have next : nextToken str = ((nextToken str).1, (nextToken str).2) := rfl
  by_cases legal : ∀ character, (nextToken str).1 ≠ .illegal character
  · cases step : parseToken state (nextToken str).1 with
    | continues after =>
        have shorter : (nextToken str).2.length < str.length :=
          length_nextToken_lt rfl (parseToken_of_stop step).1 legal
        rw [parseLoop_continues next step, parseLoopMemory_eq next legal, step]
        exact parseLoopMemory_reaches validatorLen (reading_continues reading step)
    | breaks =>
        rw [parseLoop_breaks next step, parseLoopMemory_eq next legal, step]
        exact ⟨state, str, reading, .breaks step⟩
    | fails expected =>
        have behind := isBehindParens_of_fails step (nextToken str).1.describe
          (validatorLen - (nextToken str).2.length - 1)
        rw [parseLoop_eq next legal, parseLoopMemory_eq next legal, step]
        refine ⟨state, str, reading, ?_⟩
        cases phase : state.phase with
        | afterParens =>
            rw [phase] at behind
            simp only [ParserState.refuse, phase]
            exact .keeps step legal phase behind
        | className | afterClass =>
            rw [phase] at behind
            simp only [ParserState.refuse, phase]
            exact .frees behind
    | nullDereference =>
        rw [parseLoop_nullDereference next step, parseLoopMemory_eq next legal, step]
        exact ⟨state, str, reading, .nullDereference⟩
  · obtain ⟨character, illegal⟩ := not_forall.mp legal
    rw [not_not.mp illegal] at next
    rw [parseLoop_illegal next, parseLoopMemory_illegal next]
    exact ⟨state, str, reading, .frees rfl⟩
termination_by str.length

/-- A character that is refused behind what is complete, wherever it stands. -/
def Unexpected (ch : UInt8) : Prop :=
  isalnum ch = true ∨ ch = parenOpen ∨ ch = colon

inductive LosesNodes : List UInt8 → Prop
  | applied {stack : List Frame} {tree : ClassTree} {before text rest : List UInt8} {ch : UInt8}
      (opens : Opens stack before) (derives : Derives tree text) (applied : tree.children ≠ [])
      (unexpected : Unexpected ch ∨ stack = [] ∧ (ch = comma ∨ ch = parenClose)) :
      LosesNodes (before ++ (text ++ ch :: rest))
  /-- A parenthesis that closes nothing. -/
  | close {name rest : List UInt8} {ch : UInt8} (isName : IsName name)
      (unexpected : Unexpected ch) : LosesNodes (name ++ parenClose :: ch :: rest)

theorem not_separator_continues {frame : Frame} {outer : List Frame} {tree : ClassTree}
    {expected : String} :
    parseToken (atTree (frame :: outer) tree) .comma ≠ .fails expected ∧
      parseToken (atTree (frame :: outer) tree) .parenClose ≠ .fails expected := by
  rw [parseToken_separator frame outer tree (.inl rfl), parseToken_close]
  exact ⟨by simp, by simp⟩

theorem Reading.losesNodes {validator str : List UInt8} {state : ParserState} {expected : String}
    (reading : Reading validator state str)
    (step : parseToken state (nextToken str).1 = .fails expected)
    (legal : ∀ character, (nextToken str).1 ≠ .illegal character)
    (phase : state.phase = .afterParens) : LosesNodes validator := by
  have reads := reads_nextToken str
  generalize nextToken str = next at step legal reads
  obtain ⟨token, rest⟩ := next
  cases reading with
  | atName opens whole => cases phase
  | @atTree stack tree before text _ opens derives whole =>
      have applied : tree.children ≠ [] := by
        intro bare
        simp [PhpDriver.atTree, bare] at phase
      subst whole
      cases reads with
      | @name name rest isName boundary =>
          cases name with
          | nil => cases isName
          | cons ch name => exact .applied opens derives applied (.inl (.inl isName.1))
      | parenOpen => exact .applied opens derives applied (.inl (.inr (.inl rfl)))
      | colon => exact .applied opens derives applied (.inl (.inr (.inr rfl)))
      | comma =>
          cases stack with
          | nil => exact .applied opens derives applied (.inr ⟨rfl, .inl rfl⟩)
          | cons frame outer => exact absurd step not_separator_continues.1
      | parenClose =>
          cases stack with
          | nil => exact .applied opens derives applied (.inr ⟨rfl, .inr rfl⟩)
          | cons frame outer => exact absurd step not_separator_continues.2
      | endOfString ends =>
          rw [atTree_ends] at step
          cases step
      | illegal character => exact absurd rfl (legal character)
  | aboveRoot isName whole =>
      subst whole
      cases reads with
      | @name name rest isName' boundary =>
          cases name with
          | nil => cases isName'
          | cons ch name => exact .close isName (.inl isName'.1)
      | parenOpen => exact .close isName (.inr (.inl rfl))
      | colon => exact .close isName (.inr (.inr rfl))
      | comma | parenClose | endOfString => cases step
      | illegal character => exact absurd rfl (legal character)

/-- What is unexpected makes a token that is refused behind a closing parenthesis. -/
theorem Unexpected.token {ch : UInt8} (unexpected : Unexpected ch) (rest : List UInt8) :
    ∃ token left, nextToken (ch :: rest) = (token, left) ∧
      (∀ character, token ≠ .illegal character) ∧
      ∀ state, afterParensToken state token =
        .fails "a comma, a closing parenthesis or an end of string" := by
  obtain alnum | rfl | rfl := unexpected
  · exact ⟨_, _, if_pos alnum, by simp, fun _ => rfl⟩
  · exact ⟨.parenOpen, rest, rfl, by simp, fun _ => rfl⟩
  · exact ⟨.colon, rest, rfl, by simp, fun _ => rfl⟩

theorem parseLoop_unexpected {validatorLen : Nat} {state : ParserState} {ch : UInt8}
    (unexpected : Unexpected ch) (phase : state.phase = .afterParens) (rest : List UInt8) :
    ∃ error, parseLoop validatorLen state (ch :: rest) = .failure error ∧
      error.isBehindParens = true := by
  obtain ⟨token, left, next, legal, fails⟩ := unexpected.token rest
  have step := fails state
  rw [parseLoop_eq next legal, parseToken, phase]
  simp only [step]
  exact ⟨_, rfl, rfl⟩

theorem parseLoop_applied {validatorLen : Nat} {tree : ClassTree} {text : List UInt8}
    (derives : Derives tree text) (applied : tree.children ≠ []) (stack : List Frame)
    (rest : List UInt8) :
    parseLoop validatorLen (atName stack) (text ++ rest) =
      parseLoop validatorLen (atTree stack tree) rest := by
  cases derives with
  | bare isName => exact absurd rfl applied
  | @applied name children text isName inside =>
      rw [List.append_assoc, List.cons_append, List.append_assoc, parseLoop_open isName]
      exact parseLoop_arguments inside { name, done := [] } stack rest

theorem LosesNodes.refused {validator : List UInt8} (loses : LosesNodes validator) :
    ∃ error, parseClassName validator = .failure error ∧ error.isBehindParens = true := by
  cases loses with
  | @applied stack tree before text rest ch opens derives applied unexpected =>
      have phase : (atTree stack tree).phase = .afterParens := by simp [atTree, applied]
      rw [parseClassName, parseLoop_opens opens, parseLoop_applied derives applied]
      obtain unexpected | ⟨rfl, ends⟩ := unexpected
      · exact parseLoop_unexpected unexpected phase rest
      · have parent := atTree_parent [] tree
        have token : ∃ token, nextToken (ch :: rest) = (token, rest) ∧
            (∀ character, token ≠ .illegal character) ∧
            parseToken (atTree [] tree) token = .fails "end of string" := by
          obtain rfl | rfl := ends
          · refine ⟨.comma, rfl, by simp, ?_⟩
            simp only [parseToken, phase, afterParensToken, parent, parentOf]
          · refine ⟨.parenClose, rfl, by simp, ?_⟩
            simp only [parseToken, phase, afterParensToken, parent, parentOf]
        obtain ⟨token, next, legal, step⟩ := token
        rw [parseLoop_eq next legal, step]
        exact ⟨_, rfl, rfl⟩
  | close isName unexpected =>
      rw [parseClassName_close isName]
      exact parseLoop_unexpected unexpected rfl _

/-- The result of `php_driver_parse_class_name`, and the nodes it leaves. -/
inductive NodesLeft (validator : List UInt8) :
    ParseResult → Option (ParseResult × NodeHeap) → Prop
  | parsed (tree : ClassTree) (keeps : ¬ LosesNodes validator) :
      NodesLeft validator (.success (tree.nodes none none none 0))
        (some (.success (tree.nodes none none none 0), tree.heap))
  | lost (error : ParseError) {heap : NodeHeap} (left : none ∉ heap) (made : heap ≠ [])
      (loses : LosesNodes validator) :
      NodesLeft validator (.failure error) (some (.failure error, heap))
  | freed (error : ParseError) {heap : NodeHeap} (gone : ∀ node ∈ heap, node = none)
      (made : heap ≠ []) (keeps : ¬ LosesNodes validator) :
      NodesLeft validator (.failure error) (some (.failure error, heap))
  | nullDereference : NodesLeft validator .nullDereference none

theorem NodeHeap.IsTree.made {heap : NodeHeap} (isTree : heap.IsTree) : heap ≠ [] := by
  obtain ⟨⟨name, children⟩, same⟩ := isTree
  rintro rfl
  cases same

theorem parseClassName_nodes {validator : List UInt8} {nodes : List ParseNode}
    (parsed : parseClassName validator = .success nodes) :
    ∃ tree : ClassTree, nodes = tree.nodes none none none 0 := by
  obtain ⟨tree, accepts⟩ | leaves | ⟨error, refused⟩ := parseClassName_cases validator
  · rw [accepts.parses] at parsed
    exact ⟨tree, (ParseResult.success.inj parsed).symm⟩
  · rw [leaves.parses] at parsed
    cases parsed
  · rw [refused] at parsed
    cases parsed

theorem parseClassName_leaves (validator : List UInt8) :
    NodesLeft validator (parseClassName validator)
      (parseLoopMemory validator.length {} validator) := by
  obtain ⟨last, rest, reading, leaves⟩ :=
    parseLoopMemory_reaches validator.length (@Reading.atName validator [] [] validator .nil rfl)
  have refused := @LosesNodes.refused validator
  have accepted := @parseClassName_nodes validator
  rw [at_root] at leaves
  change LoopLeaves _ _ (parseClassName validator) _ at leaves
  generalize parseClassName validator = result at leaves refused accepted ⊢
  generalize parseLoopMemory validator.length {} validator = left at leaves ⊢
  cases leaves with
  | breaks step =>
      obtain ⟨tree, same⟩ := accepted rfl
      rw [ParserState.heap, same]
      refine .parsed tree fun loses => ?_
      obtain ⟨error, impossible, _⟩ := refused loses
      cases impossible
  | keeps step legal phase behind =>
      refine .lost _ ?_ reading.isTree.made (reading.losesNodes step legal phase)
      simp [ParserState.heap]
  | frees behind =>
      rw [reading.isTree.freeRoot]
      refine .freed _ (fun node member => List.eq_of_mem_replicate member) ?_ fun loses => ?_
      · simpa using reading.isTree.made
      · obtain ⟨error, same, lost⟩ := refused loses
        obtain rfl := ParseResult.failure.inj same
        rw [behind] at lost
        cases lost
  | nullDereference => exact .nullDereference

theorem parseColumnTypeMemory_tree {validator : List UInt8} {tree : ClassTree}
    (parsed : parseLoopMemory validator.length {} validator =
      some (.success (tree.nodes none none none 0), tree.heap)) :
    parseColumnTypeMemory validator =
      match columnType false false tree [] with
      | .undefined => none
      | result => some (result, List.replicate tree.size none) := by
  rw [parseColumnTypeMemory, parsed]
  simp only [nodesFrom_tree, freeRoot_tree, Option.map_some]

/-- All nodes are lost, or all are given back, as the string has it. -/
structure Accounted (validator : List UInt8) (heap : NodeHeap) : Prop where
  lost_iff : none ∉ heap ↔ LosesNodes validator
  freed_iff : (∀ node ∈ heap, node = none) ↔ ¬ LosesNodes validator

section

variable {validator : List UInt8} {heap : NodeHeap} (made : heap ≠ [])

include made

theorem accounted_lost (left : none ∉ heap) (loses : LosesNodes validator) :
    Accounted validator heap where
  lost_iff := iff_of_true left loses
  freed_iff := by
    refine iff_of_false (fun gone => ?_) (not_not_intro loses)
    obtain ⟨node, member⟩ := List.exists_mem_of_ne_nil heap made
    exact left (gone node member ▸ member)

theorem accounted_freed (gone : ∀ node ∈ heap, node = none) (keeps : ¬ LosesNodes validator) :
    Accounted validator heap where
  lost_iff := by
    refine iff_of_false (fun left => ?_) keeps
    obtain ⟨node, member⟩ := List.exists_mem_of_ne_nil heap made
    exact left (gone node member ▸ member)
  freed_iff := iff_of_true gone keeps

end

theorem accounted_replicate {validator : List UInt8} (tree : ClassTree)
    (keeps : ¬ LosesNodes validator) : Accounted validator (List.replicate tree.size none) := by
  refine accounted_freed ?_ (fun node member => List.eq_of_mem_replicate member) keeps
  obtain ⟨name, children⟩ := tree
  simp [size]

/-- The result is that of `parseColumnType`. Every node that was made for the string is given
back, unless the string goes wrong behind a closing parenthesis: then all of them are lost. -/
theorem parser_gives_nodes_back (validator : List UInt8) :
    (parseColumnTypeMemory validator = none ↔ parseColumnType validator = .undefined) ∧
      ∀ left ∈ parseColumnTypeMemory validator,
        left.1 = parseColumnType validator ∧ Accounted validator left.2 := by
  have leaves := parseClassName_leaves validator
  generalize result : parseClassName validator = parsed at leaves
  generalize memory : parseLoopMemory validator.length {} validator = left at leaves
  cases leaves with
  | parsed tree keeps =>
      rw [parseColumnTypeMemory_tree memory, parseColumnType, result]
      simp only [nodesFrom_tree]
      cases columnType false false tree [] with
      | undefined => simp
      | success reversed frozen type | failure error | invalidType =>
          simpa using accounted_replicate tree keeps
  | lost error left made loses =>
      rw [parseColumnTypeMemory, memory, parseColumnType, result]
      simpa using accounted_lost made left loses
  | freed error gone made keeps =>
      rw [parseColumnTypeMemory, memory, parseColumnType, result]
      simpa using accounted_freed made gone keeps
  | nullDereference =>
      rw [parseColumnTypeMemory, memory, parseColumnType, result]
      simp

/-- `A(B)C` loses the nodes of `A` and `B`. -/
example : LosesNodes [0x41, parenOpen, 0x42, parenClose, 0x43] := by
  have outer : IsName [0x41] := ⟨by decide, by simp⟩
  have inner : IsName [0x42] := ⟨by decide, by simp⟩
  exact .applied .nil (.applied outer (.last (.bare inner))) (by simp [children])
    (.inl (.inl (by decide)))

end PhpDriver
