import PhpDriver.Util.ClassMatch

namespace PhpDriver

open Data ClassTree Punctuation

/-! The class names of custom types, printed from a node of a class name that was parsed. -/

def space : UInt8 := 0x20

/-- One row of siblings, in which or inside which a node occurs before some others. -/
inductive Occurs : List ClassTree → ClassTree → List ClassTree → Prop
  | here (node : ClassTree) (siblings : List ClassTree) : Occurs (node :: siblings) node siblings
  | later {first node : ClassTree} {others siblings : List ClassTree}
      (occurs : Occurs others node siblings) : Occurs (first :: others) node siblings
  | inside {name : List UInt8} {node : ClassTree} {children others siblings : List ClassTree}
      (occurs : Occurs children node siblings) :
      Occurs (.node name children :: others) node siblings

/-- The node itself, and none that it wraps, becomes a custom type. -/
structure BecomesCustom (node : ClassTree) (siblings : List ClassTree)
    (className : List UInt8) : Prop where
  own : isWrapper node.name = false
  custom : createType node siblings = some (.custom className)

/-- The class name is that of the node alone, and is read as the node alone. -/
structure DumpRoundTrips (node : ClassTree) (className : List UInt8) : Prop where
  own : BecomesCustom node [] className
  parses : ∃ nodes, parseClassName className = .success nodes ∧
    nodesFrom nodes nodes.length (some 0) = [node]

inductive Chain : ClassTree → Prop
  | leaf (name : List UInt8) : Chain (.node name [])
  | link (name : List UInt8) {child : ClassTree} (inner : Chain child) :
      Chain (.node name [child])

/-! What was parsed is a tree of names, closed or not. -/

inductive Named : ClassTree → Prop
  | node {name : List UInt8} {children : List ClassTree} (isName : IsName name)
      (inside : ∀ child ∈ children, Named child) : Named (.node name children)

mutual

theorem Derives.named {tree : ClassTree} {text : List UInt8} : Derives tree text → Named tree
  | .bare isName => .node isName (by simp)
  | .applied isName inside => .node isName inside.named

theorem DerivesArguments.named {trees : List ClassTree} {text : List UInt8} :
    DerivesArguments trees text → ∀ tree ∈ trees, Named tree
  | .last derives => by
      intro tree member
      rw [List.mem_singleton.mp member]
      exact derives.named
  | .more derives _ others => by
      intro tree member
      cases member with
      | head => exact derives.named
      | tail _ later => exact others.named tree later

end

theorem DerivesDone.named {done : List ClassTree} {text : List UInt8}
    (arguments : DerivesDone done text) : ∀ tree ∈ done, Named tree := by
  induction arguments with
  | nil => simp
  | append earlier derives _ ih =>
      intro tree member
      cases List.mem_append.mp member with
      | inl before => exact ih tree before
      | inr last =>
          rw [List.mem_singleton.mp last]
          exact derives.named

/-- The nodes that are still open are closed by the end of the string. -/
theorem nodes_of_opens {stack : List Frame} {before : List UInt8} (opens : Opens stack before)
    {tree : ClassTree} (named : Named tree) :
    ∃ root, Named root ∧ (atTree stack tree).nodes = root.nodes none none none 0 := by
  induction opens generalizing tree with
  | nil => exact ⟨tree, named, rfl⟩
  | cons opens isName arguments ih =>
      rw [atTree_nodes]
      apply ih
      refine .node isName ?_
      intro child member
      cases List.mem_append.mp member with
      | inl done => exact arguments.named child done
      | inr last =>
          rw [List.mem_singleton.mp last]
          exact named

theorem nodes_of_breaks {validator str rest : List UInt8} {state : ParserState} {token : Token}
    (reading : Reading validator state str) (reads : Reads str token rest)
    (breaks : parseToken state token = .breaks) :
    ∃ root, Named root ∧ state.nodes = root.nodes none none none 0 := by
  cases reading with
  | atName opens whole => cases reads <;> cases breaks
  | atTree opens derives whole => exact nodes_of_opens opens derives.named
  | @aboveRoot name _ isName whole => exact ⟨.node name [], .node isName (by simp), rfl⟩

theorem parseLoop_success (validatorLen : Nat) {validator str : List UInt8}
    {state : ParserState} {nodes : List ParseNode} (reading : Reading validator state str)
    (success : parseLoop validatorLen state str = .success nodes) :
    ∃ root, Named root ∧ nodes = root.nodes none none none 0 := by
  obtain ⟨last, rest, reading, ends⟩ := parseLoop_reaches validatorLen reading_continues reading
  rw [success] at ends
  cases ends with
  | breaks step => exact nodes_of_breaks reading (reads_nextToken rest) step

theorem parseClassName_success {validator : List UInt8} {nodes : List ParseNode}
    (success : parseClassName validator = .success nodes) :
    ∃ root, Named root ∧ nodesFrom nodes nodes.length (some 0) = [root] := by
  obtain ⟨root, named, rfl⟩ := parseLoop_success validator.length
    (Reading.atName Opens.nil (List.nil_append validator).symm) success
  exact ⟨root, named, nodesFrom_tree root⟩

theorem Occurs.named {row siblings : List ClassTree} {node : ClassTree}
    (occurs : Occurs row node siblings) (all : ∀ tree ∈ row, Named tree) : Named node := by
  induction occurs with
  | here node siblings => exact all node List.mem_cons_self
  | later _ ih => exact ih fun tree member => all tree (List.mem_cons_of_mem _ member)
  | inside _ ih =>
      cases all _ List.mem_cons_self with
      | node _ inside => exact ih inside

/-! The printed text has no NUL, and a space before every second argument. -/

theorem nodeDump_eq (name : List UInt8) (children : List ClassTree) :
    nodeDump (.node name children) =
      name ++
        if children.isEmpty then [] else parenOpen :: (nodeDumpTo children ++ [parenClose]) := by
  unfold nodeDump
  rfl

theorem nodeDumpTo_single (node : ClassTree) : nodeDumpTo [node] = nodeDump node := by
  unfold nodeDumpTo
  simp

theorem nodeDumpTo_cons (node next : ClassTree) (siblings : List ClassTree) :
    nodeDumpTo (node :: next :: siblings) =
      nodeDump node ++ comma :: space :: nodeDumpTo (next :: siblings) := by
  conv_lhs => unfold nodeDumpTo
  rfl

mutual

theorem zero_not_mem_nodeDump : ∀ node : ClassTree, Named node → 0 ∉ nodeDump node
  | .node name children, named => by
      cases named with
      | node isName inside =>
          have outside : (0 : UInt8) ∉ name := fun member =>
            absurd (isName.letters 0 member) (by decide)
          rw [nodeDump_eq]
          split
          · simpa using outside
          · have within := zero_not_mem_nodeDumpTo children inside
            simp [outside, within, parenOpen, parenClose]

theorem zero_not_mem_nodeDumpTo : ∀ nodes : List ClassTree, (∀ node ∈ nodes, Named node) →
    0 ∉ nodeDumpTo nodes
  | [], _ => by simp [nodeDumpTo]
  | [last], named => by
      rw [nodeDumpTo_single]
      exact zero_not_mem_nodeDump last (named last List.mem_cons_self)
  | first :: next :: siblings, named => by
      have first := zero_not_mem_nodeDump first (named first List.mem_cons_self)
      have rest := zero_not_mem_nodeDumpTo (next :: siblings)
        fun other member => named other (List.mem_cons_of_mem _ member)
      rw [nodeDumpTo_cons]
      simp [first, rest, comma, space]

end

/-- What a token is read from has a space only where it is read on. -/
theorem space_of_reads {str rest : List UInt8} {token : Token} (reads : Reads str token rest)
    (legal : ∀ character, token ≠ .illegal character) (plain : 0 ∉ str)
    (spaced : space ∈ str) :
    0 ∉ rest ∧ space ∈ rest := by
  cases reads with
  | @name name _ isName boundary =>
      have outside : space ∉ name := fun member =>
        absurd (isName.letters space member) (by decide)
      simp only [List.mem_append, not_or] at plain spaced
      exact ⟨plain.2, spaced.resolve_left outside⟩
  | parenOpen | parenClose | comma | colon =>
      simp only [List.mem_cons, not_or] at plain spaced
      exact ⟨plain.2, spaced.resolve_left (by decide)⟩
  | endOfString ends =>
      cases ends with
      | inl empty =>
          rw [empty] at spaced
          cases spaced
      | inr zero => exact absurd (List.mem_of_head? zero) plain
  | illegal character => exact absurd rfl (legal character)

theorem endOfString_of_breaks {state : ParserState} {token : Token}
    (breaks : parseToken state token = .breaks) : token = .endOfString := by
  unfold parseToken at breaks
  cases phase : state.phase <;> rw [phase] at breaks <;> dsimp only at breaks
  · cases token <;> simp only [classToken] at breaks <;> (try split at breaks) <;> cases breaks
  · cases token <;> simp only [afterClassToken] at breaks <;> (try split at breaks) <;>
      first | rfl | cases breaks
  · cases token <;> simp only [afterParensToken] at breaks <;> (try split at breaks) <;>
      first | rfl | cases breaks

theorem parseLoop_spaced (validatorLen : Nat) {state : ParserState} {str : List UInt8}
    {nodes : List ParseNode} (plain : 0 ∉ str) (spaced : space ∈ str) :
    parseLoop validatorLen state str ≠ .success nodes := by
  intro success
  obtain ⟨last, rest, ⟨plain, spaced⟩, ends⟩ :=
    @parseLoop_reaches validatorLen (fun _ str => 0 ∉ str ∧ space ∈ str)
      (fun held step =>
        space_of_reads (reads_nextToken _) (parseToken_of_stop step).2 held.1 held.2)
      state str ⟨plain, spaced⟩
  rw [success] at ends
  cases ends with
  | breaks step =>
      have reads := reads_nextToken rest
      rw [endOfString_of_breaks step] at reads
      generalize (nextToken rest).2 = behind at reads
      cases reads with
      | endOfString ends =>
          cases ends with
          | inl empty =>
              rw [empty] at spaced
              cases spaced
          | inr zero => exact plain (List.mem_of_head? zero)

theorem Chain.derives {node : ClassTree} (chain : Chain node) (named : Named node) :
    Derives node (nodeDump node) := by
  induction chain with
  | leaf name =>
      cases named with
      | node isName _ =>
          have text : nodeDump (.node name []) = name := by
            rw [nodeDump_eq]
            exact List.append_nil name
          rw [text]
          exact .bare isName
  | link name inner ih =>
      cases named with
      | node isName inside =>
          have derives := ih (inside _ List.mem_cons_self)
          rw [nodeDump_eq, nodeDumpTo_single]
          exact .applied isName (.last derives)

theorem chain_of_plain : ∀ node : ClassTree, space ∉ nodeDump node → Chain node
  | .node name [], _ => .leaf name
  | .node name [child], plain => by
      rw [nodeDump_eq, nodeDumpTo_single] at plain
      refine .link name (chain_of_plain child fun member => plain ?_)
      simp [member]
  | .node name (first :: next :: others), plain => by
      rw [nodeDump_eq, nodeDumpTo_cons] at plain
      simp at plain

theorem createType_custom {node : ClassTree} (own : isWrapper node.name = false)
    (kind : lookupType node.name = .custom) (siblings : List ClassTree) :
    createType node siblings = some (.custom (nodeDumpTo (node :: siblings))) := by
  cases node with
  | node name children =>
      have ownName : isWrapper name = false := own
      have kindName : lookupType name = .custom := kind
      unfold createType
      rw [ownName, if_neg Bool.false_ne_true, kindName]

theorem lookupType_of_custom {node : ClassTree} {siblings : List ClassTree}
    {className : List UInt8} (becomes : BecomesCustom node siblings className) :
    lookupType node.name = .custom := by
  have own := becomes.own
  have custom := becomes.custom
  cases node with
  | node name children =>
      have ownName : isWrapper name = false := own
      unfold createType at custom
      rw [ownName, if_neg Bool.false_ne_true] at custom
      cases kind : lookupType name with
      | custom => exact kind
      | scalar type =>
          rw [kind] at custom
          cases custom
      | tuple =>
          rw [kind] at custom
          simp at custom
      | map | list | set | userType =>
          exfalso
          rw [kind] at custom
          dsimp only at custom
          repeat' split at custom
          all_goals simp at custom

theorem BecomesCustom.className_eq {node : ClassTree} {siblings : List ClassTree}
    {className : List UInt8} (becomes : BecomesCustom node siblings className) :
    className = nodeDumpTo (node :: siblings) := by
  have custom := becomes.custom
  rw [createType_custom becomes.own (lookupType_of_custom becomes)] at custom
  exact (ColumnType.custom.inj (Option.some.inj custom)).symm

theorem DumpRoundTrips.chain {node : ClassTree} {className : List UInt8}
    (roundTrips : DumpRoundTrips node className) (named : Named node) : Chain node := by
  have alone := roundTrips.own.className_eq
  rw [nodeDumpTo_single] at alone
  obtain ⟨nodes, success, _⟩ := roundTrips.parses
  apply chain_of_plain
  intro spaced
  rw [alone] at success
  exact parseLoop_spaced _ (zero_not_mem_nodeDump node named) spaced success

theorem siblings_eq_nil {node : ClassTree} {siblings : List ClassTree} {className : List UInt8}
    (becomes : BecomesCustom node siblings className) (own : BecomesCustom node [] className) :
    siblings = [] := by
  cases siblings with
  | nil => rfl
  | cons next siblings =>
      have alone := own.className_eq
      rw [becomes.className_eq, nodeDumpTo_cons, nodeDumpTo_single] at alone
      have lengths := congrArg List.length alone
      simp at lengths

/-- Of a class name that was parsed, the nodes that are read back are the last arguments,
as long as no node inside has two. -/
theorem dump_round_trips_iff {validator : List UInt8} {nodes : List ParseNode}
    (parsed : parseClassName validator = .success nodes) {node : ClassTree}
    {siblings : List ClassTree}
    (occurs : Occurs (nodesFrom nodes nodes.length (some 0)) node siblings)
    {className : List UInt8} (becomes : BecomesCustom node siblings className) :
    DumpRoundTrips node className ↔ siblings = [] ∧ Chain node := by
  obtain ⟨root, rootNamed, tree⟩ := parseClassName_success parsed
  rw [tree] at occurs
  have named : Named node := occurs.named fun other member => by
    rw [List.mem_singleton.mp member]
    exact rootNamed
  constructor
  · intro roundTrips
    exact ⟨siblings_eq_nil becomes roundTrips.own, roundTrips.chain named⟩
  · intro last
    obtain ⟨rfl, chain⟩ := last
    have alone := becomes.className_eq
    rw [nodeDumpTo_single] at alone
    refine ⟨becomes, _, ?_, nodesFrom_tree node⟩
    rw [alone]
    exact parseClassName_derives (chain.derives named)

private theorem isName_letter {letter : UInt8} (alnum : isalnum letter = true) :
    IsName [letter] :=
  ⟨alnum, by simp⟩

/-- `A(B)` as a whole and its argument. -/
theorem argument_round_trips :
    ∃ nodes, parseClassName (ascii "A(B)") = .success nodes ∧
      Occurs (nodesFrom nodes nodes.length (some 0)) (.node (ascii "B") []) [] ∧
      DumpRoundTrips (.node (ascii "B") []) (ascii "B") := by
  have derives : Derives (.node (ascii "A") [.node (ascii "B") []]) (ascii "A(B)") :=
    .applied (isName_letter (by decide)) (.last (.bare (isName_letter (by decide))))
  have occurs : Occurs [.node (ascii "A") [.node (ascii "B") []]] (.node (ascii "B") []) [] :=
    .inside (.here _ _)
  have parsed := parseClassName_derives derives
  rw [← nodesFrom_tree] at occurs
  have becomes : BecomesCustom (.node (ascii "B") []) [] (ascii "B") :=
    ⟨by decide +kernel, createType_custom (by decide +kernel) (by decide +kernel) []⟩
  exact ⟨_, parsed, occurs,
    (dump_round_trips_iff parsed occurs becomes).mpr ⟨rfl, .leaf _⟩⟩

/-- `A(B,C)` is printed as `A(B, C)`, the space of which is no token, and the name of the
node `B` is `B, C`. -/
theorem second_argument_does_not_round_trip :
    ∃ nodes, parseClassName (ascii "A(B,C)") = .success nodes ∧
      nodesFrom nodes nodes.length (some 0) =
        [.node (ascii "A") [.node (ascii "B") [], .node (ascii "C") []]] ∧
      BecomesCustom (.node (ascii "A") [.node (ascii "B") [], .node (ascii "C") []]) []
        (ascii "A(B, C)") ∧
      ¬ DumpRoundTrips (.node (ascii "A") [.node (ascii "B") [], .node (ascii "C") []])
        (ascii "A(B, C)") ∧
      BecomesCustom (.node (ascii "B") []) [.node (ascii "C") []] (ascii "B, C") ∧
      ¬ DumpRoundTrips (.node (ascii "B") []) (ascii "B, C") := by
  have derives : Derives (.node (ascii "A") [.node (ascii "B") [], .node (ascii "C") []])
      (ascii "A(B,C)") :=
    .applied (isName_letter (by decide))
      (.more (.bare (isName_letter (by decide))) (Or.inl rfl)
        (.last (.bare (isName_letter (by decide)))))
  have inner : BecomesCustom (.node (ascii "B") []) [.node (ascii "C") []] (ascii "B, C") :=
    ⟨by decide +kernel, createType_custom (by decide +kernel) (by decide +kernel) _⟩
  refine ⟨_, parseClassName_derives derives, nodesFrom_tree _,
    ⟨by decide +kernel, createType_custom (by decide +kernel) (by decide +kernel) _⟩, ?_,
    inner, ?_⟩
  · intro roundTrips
    cases roundTrips.chain derives.named
  · intro roundTrips
    cases siblings_eq_nil inner roundTrips.own

end PhpDriver
