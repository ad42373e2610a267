import PhpDriver.Util.ClassName

namespace PhpDriver

/-! The nodes of `php_driver_parse_class_name` as the links of a tree. The nodes of a tree
are numbered in the order they are made in, a parent before its children. -/

inductive ClassTree where
  | node (name : List UInt8) (children : List ClassTree)

namespace ClassTree

def name : ClassTree → List UInt8
  | .node name _ => name

def children : ClassTree → List ClassTree
  | .node _ children => children

mutual

def size : ClassTree → Nat
  | .node _ children => 1 + sizes children

def sizes : List ClassTree → Nat
  | [] => 0
  | child :: rest => size child + sizes rest

end

def lastOf (base : Nat) : List ClassTree → Option Nat
  | [] => none
  | child :: rest => if rest.isEmpty then some base else lastOf (base + child.size) rest

mutual

def nodes (parent prev next : Option Nat) (base : Nat) : ClassTree → List ParseNode
  | .node name children =>
      { parent, name := some name
        firstChild := if children.isEmpty then none else some (base + 1)
        lastChild := lastOf (base + 1) children
        nextSibling := next, prevSibling := prev } ::
      childNodes base none none (base + 1) children

def childNodes (parent : Nat) (prev next : Option Nat) (base : Nat) :
    List ClassTree → List ParseNode
  | [] => []
  | child :: rest =>
      nodes (some parent) prev (if rest.isEmpty then next else some (base + child.size)) base
          child ++
        childNodes parent (some base) next (base + child.size) rest

end

theorem sizes_append (trees others : List ClassTree) :
    sizes (trees ++ others) = sizes trees + sizes others := by
  induction trees with
  | nil => simp [sizes]
  | cons tree trees ih => rw [List.cons_append, sizes, ih, sizes, Nat.add_assoc]

theorem lastOf_append (base : Nat) (trees : List ClassTree) (tree : ClassTree) :
    lastOf base (trees ++ [tree]) = some (base + sizes trees) := by
  induction trees generalizing base with
  | nil => rfl
  | cons first trees ih =>
      rw [List.cons_append, lastOf, if_neg (by simp), ih, sizes, Nat.add_assoc]

mutual

theorem length_nodes : ∀ (tree : ClassTree) (parent prev next : Option Nat) (base : Nat),
    (tree.nodes parent prev next base).length = tree.size
  | .node _ children, _, _, _, base => by
      rw [nodes, List.length_cons, length_childNodes children base none none (base + 1), size,
        Nat.add_comm]

theorem length_childNodes : ∀ (trees : List ClassTree) (parent : Nat) (prev next : Option Nat)
    (base : Nat), (childNodes parent prev next base trees).length = sizes trees
  | [], _, _, _, _ => rfl
  | tree :: trees, parent, prev, next, base => by
      rw [childNodes, List.length_append, length_nodes tree, length_childNodes trees, sizes]

end

/-- One more child is the next sibling of the last of those before. -/
theorem childNodes_append (parent : Nat) (prev next : Option Nat) (base : Nat)
    (trees : List ClassTree) (tree : ClassTree) :
    childNodes parent prev next base (trees ++ [tree]) =
      childNodes parent prev (some (base + sizes trees)) base trees ++
        tree.nodes (some parent) ((lastOf base trees).or prev) next (base + sizes trees) := by
  induction trees generalizing prev base with
  | nil => simp [childNodes, sizes, lastOf]
  | cons first trees ih =>
      have last : (lastOf base (first :: trees)).or prev =
          (lastOf (base + first.size) trees).or (some base) := by
        cases trees with
        | nil => rfl
        | cons second trees =>
            obtain ⟨front, last, same⟩ : ∃ front last, second :: trees = front ++ [last] :=
              ⟨_, _, (List.dropLast_concat_getLast (by simp)).symm⟩
            rw [lastOf, if_neg (by simp), same, lastOf_append]
            rfl
      rw [List.cons_append, childNodes, childNodes, ih, last, sizes, ← Nat.add_assoc,
        List.append_assoc, if_neg (by simp)]
      congr 2
      cases trees with
      | nil => rfl
      | cons second trees => rfl

end ClassTree

/-- A node whose arguments are not complete yet. -/
structure Frame where
  name : List UInt8
  done : List ClassTree

open ClassTree

/-- The nodes of the open nodes, the innermost first, whose last child is the next one. -/
def contextNodes : List Frame → List ParseNode
  | [] => []
  | frame :: outer =>
      let base := (contextNodes outer).length
      contextNodes outer ++
        { parent := match outer with
            | [] => none
            | _ :: outer => some (contextNodes outer).length
          name := some frame.name
          firstChild := some (base + 1)
          lastChild := some (base + 1 + sizes frame.done)
          prevSibling := match outer with
            | [] => none
            | frame :: outer => lastOf ((contextNodes outer).length + 1) frame.done } ::
        childNodes base none (some (base + 1 + sizes frame.done)) (base + 1) frame.done

def parentOf : List Frame → Option Nat
  | [] => none
  | _ :: outer => some (contextNodes outer).length

def prevOf : List Frame → Option Nat
  | [] => none
  | frame :: outer => lastOf ((contextNodes outer).length + 1) frame.done

def atName (stack : List Frame) : ParserState where
  phase := .className
  nodes := contextNodes stack ++ [{ parent := parentOf stack, prevSibling := prevOf stack }]
  node := some (contextNodes stack).length

def atTree (stack : List Frame) (tree : ClassTree) : ParserState where
  phase := if tree.children.isEmpty then .afterClass else .afterParens
  nodes := contextNodes stack ++
    tree.nodes (parentOf stack) (prevOf stack) none (contextNodes stack).length
  node := some (contextNodes stack).length

def aboveRoot (name : List UInt8) : ParserState where
  phase := .afterParens
  nodes := (ClassTree.node name []).nodes none none none 0
  node := none

theorem contextNodes_cons (frame : Frame) (outer : List Frame) :
    contextNodes (frame :: outer) =
      contextNodes outer ++
        { parent := parentOf outer
          name := some frame.name
          firstChild := some ((contextNodes outer).length + 1)
          lastChild := some ((contextNodes outer).length + 1 + sizes frame.done)
          prevSibling := prevOf outer } ::
        childNodes (contextNodes outer).length none
          (some ((contextNodes outer).length + 1 + sizes frame.done))
          ((contextNodes outer).length + 1) frame.done := by
  cases outer <;> rfl

theorem length_contextNodes_cons (frame : Frame) (outer : List Frame) :
    (contextNodes (frame :: outer)).length =
      (contextNodes outer).length + 1 + sizes frame.done := by
  rw [contextNodes_cons, List.length_append, List.length_cons, length_childNodes]
  omega

theorem modify_length_append (before : List α) (item : α) (after : List α) (change : α → α) :
    (before ++ item :: after).modify before.length change = before ++ change item :: after := by
  induction before with
  | nil => rfl
  | cons first before ih => rw [List.cons_append, List.length_cons, List.modify_succ_cons, ih,
      List.cons_append]

theorem getD_length_append (before : List α) (item : α) (after : List α) (default : α) :
    (before ++ item :: after).getD before.length default = item := by
  simp

theorem at_root : atName [] = {} := rfl

theorem parseToken_name (stack : List Frame) (name : List UInt8) :
    parseToken (atName stack) (.name name) = .continues (atTree stack (.node name [])) := by
  have named : (atName stack).named (contextNodes stack).length name =
      atTree stack (.node name []) := by
    rw [ParserState.named, atName, atTree]
    simp only [modify_length_append]
    rfl
  rw [← named]
  rfl

theorem parseToken_open (stack : List Frame) (name : List UInt8) :
    parseToken (atTree stack (.node name [])) .parenOpen =
      .continues (atName ({ name, done := [] } :: stack)) := by
  have opened : (atTree stack (.node name [])).openChild (contextNodes stack).length =
      atName ({ name, done := [] } :: stack) := by
    have node : (atTree stack (.node name [])).nodes = contextNodes stack ++
        [{ parent := parentOf stack, name := some name, prevSibling := prevOf stack }] := rfl
    simp only [ParserState.openChild, ParserState.at, node, getD_length_append,
      modify_length_append, List.length_append, List.length_singleton]
    rw [atName, length_contextNodes_cons, contextNodes_cons]
    simp [childNodes, sizes, parentOf, prevOf, lastOf]
  rw [← opened]
  rfl

theorem parentOf_cons (frame : Frame) (outer : List Frame) :
    parentOf (frame :: outer) = some (contextNodes outer).length := rfl

theorem prevOf_cons (frame : Frame) (outer : List Frame) :
    prevOf (frame :: outer) = lastOf ((contextNodes outer).length + 1) frame.done := rfl

/-- The same nodes, with the last argument as part of its parent. -/
theorem atTree_nodes (frame : Frame) (outer : List Frame) (tree : ClassTree) :
    (atTree (frame :: outer) tree).nodes =
      (atTree outer (.node frame.name (frame.done ++ [tree]))).nodes := by
  simp only [atTree, nodes, lastOf_append, childNodes_append, contextNodes_cons,
    List.append_assoc, List.cons_append, parentOf_cons, prevOf_cons, Option.or_none]
  simp [length_childNodes, Nat.add_assoc, Nat.add_comm 1]

theorem atTree_parent (stack : List Frame) (tree : ClassTree) :
    (atTree stack tree).parent = some ((contextNodes stack).length, parentOf stack) := by
  obtain ⟨name, children⟩ := tree
  simp only [ParserState.parent, ParserState.at, atTree, nodes, getD_length_append,
    Option.map_some]

theorem atTree_ends (stack : List Frame) (tree : ClassTree) :
    parseToken (atTree stack tree) .endOfString = .breaks := by
  cases bare : tree.children.isEmpty <;> simp only [parseToken, atTree, bare] <;> rfl

theorem atTree_nextSibling (frame : Frame) (outer : List Frame) (tree : ClassTree) :
    (atTree (frame :: outer) tree).nextSibling (contextNodes (frame :: outer)).length
        (contextNodes outer).length =
      atName ({ frame with done := frame.done ++ [tree] } :: outer) := by
  obtain ⟨name, children⟩ := tree
  have length : (atTree (frame :: outer) (.node name children)).nodes.length =
      (contextNodes outer).length + 1 + sizes (frame.done ++ [.node name children]) := by
    rw [atTree, List.length_append, length_nodes, length_contextNodes_cons, sizes_append]
    simp [sizes, Nat.add_assoc]
  rw [ParserState.nextSibling, length, atName, length_contextNodes_cons]
  simp only [atTree, nodes, ← length_contextNodes_cons, modify_length_append]
  rw [contextNodes_cons, contextNodes_cons, List.append_assoc, List.cons_append,
    modify_length_append, childNodes_append, nodes]
  have index : (contextNodes outer).length + (sizes frame.done + 1) =
      (contextNodes outer).length + 1 + sizes frame.done := by omega
  have grown : sizes (frame.done ++ [.node name children]) =
      sizes frame.done + (1 + sizes children) := by
    rw [sizes_append, sizes, sizes, size, Nat.add_zero]
  simp [lastOf_append, parentOf_cons, prevOf_cons, List.append_assoc, length_childNodes, index,
    grown]
  omega

theorem parseToken_separator (frame : Frame) (outer : List Frame) (tree : ClassTree)
    {separator : Token}
    (separates : separator = .comma ∨ separator = .colon ∧ tree.children = []) :
    parseToken (atTree (frame :: outer) tree) separator =
      .continues (atName ({ frame with done := frame.done ++ [tree] } :: outer)) := by
  have parent := atTree_parent (frame :: outer) tree
  rw [parentOf_cons] at parent
  rw [← atTree_nextSibling]
  cases bare : tree.children.isEmpty with
  | true =>
      have phase : (atTree (frame :: outer) tree).phase = .afterClass := by simp [atTree, bare]
      obtain rfl | ⟨rfl, _⟩ := separates <;>
        simp only [parseToken, phase, afterClassToken, parent]
  | false =>
      have phase : (atTree (frame :: outer) tree).phase = .afterParens := by simp [atTree, bare]
      obtain rfl | ⟨rfl, none_⟩ := separates
      · simp only [parseToken, phase, afterParensToken, parent]
      · simp [none_] at bare

theorem parseToken_close (frame : Frame) (outer : List Frame) (tree : ClassTree) :
    parseToken (atTree (frame :: outer) tree) .parenClose =
      .continues (atTree outer (.node frame.name (frame.done ++ [tree]))) := by
  have parent := atTree_parent (frame :: outer) tree
  rw [parentOf_cons] at parent
  have closed : atTree outer (.node frame.name (frame.done ++ [tree])) =
      { phase := .afterParens, nodes := (atTree (frame :: outer) tree).nodes,
        node := some (contextNodes outer).length } := by
    rw [atTree_nodes]
    simp [atTree, children]
  rw [closed]
  cases bare : tree.children.isEmpty with
  | true =>
      have phase : (atTree (frame :: outer) tree).phase = .afterClass := by simp [atTree, bare]
      simp only [parseToken, phase, afterClassToken, parent]
  | false =>
      have phase : (atTree (frame :: outer) tree).phase = .afterParens := by simp [atTree, bare]
      simp only [parseToken, phase, afterParensToken, parent]

theorem parseToken_root_bare (name : List UInt8) :
    parseToken (atTree [] (.node name [])) .comma = .nullDereference ∧
      parseToken (atTree [] (.node name [])) .colon = .nullDereference ∧
      parseToken (atTree [] (.node name [])) .parenClose = .continues (aboveRoot name) :=
  ⟨rfl, rfl, rfl⟩

theorem parseToken_aboveRoot (name : List UInt8) :
    parseToken (aboveRoot name) .comma = .nullDereference ∧
      parseToken (aboveRoot name) .parenClose = .nullDereference :=
  ⟨rfl, rfl⟩

end PhpDriver
