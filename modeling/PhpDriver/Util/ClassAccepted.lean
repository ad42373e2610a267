import PhpDriver.Util.ClassGrammar

namespace PhpDriver

open ClassTree Punctuation

/-! Where `parseClassName` and the grammar differ. -/

/-- How many of the opened parentheses are not closed. -/
def nesting (text : List UInt8) : Int :=
  (text.count parenOpen : Int) - text.count parenClose

@[simp] theorem nesting_nil : nesting [] = 0 := rfl

@[simp] theorem nesting_append (text rest : List UInt8) :
    nesting (text ++ rest) = nesting text + nesting rest := by
  simp only [nesting, List.count_append, Int.natCast_add]
  omega

@[simp] theorem nesting_open (rest : List UInt8) :
    nesting (parenOpen :: rest) = nesting rest + 1 := by
  have other : rest.count parenClose = (parenOpen :: rest).count parenClose :=
    (List.count_cons_of_ne (by decide)).symm
  rw [nesting, ← other, List.count_cons_self, nesting]
  omega

@[simp] theorem nesting_close (rest : List UInt8) :
    nesting (parenClose :: rest) = nesting rest - 1 := by
  have other : rest.count parenOpen = (parenClose :: rest).count parenOpen :=
    (List.count_cons_of_ne (by decide)).symm
  rw [nesting, ← other, List.count_cons_self, nesting]
  omega

theorem nesting_cons_of_ne {ch : UInt8} (opens : ch ≠ parenOpen) (closes : ch ≠ parenClose)
    (rest : List UInt8) : nesting (ch :: rest) = nesting rest := by
  rw [nesting, List.count_cons_of_ne opens, List.count_cons_of_ne closes, nesting]

theorem nesting_letters {text : List UInt8} (letters : ∀ ch ∈ text, isletter ch) :
    nesting text = 0 := by
  induction text with
  | nil => rfl
  | cons ch text ih =>
      have letter : isletter ch := letters ch List.mem_cons_self
      have opens : ch ≠ parenOpen := by rintro rfl; exact absurd letter (by decide)
      have closes : ch ≠ parenClose := by rintro rfl; exact absurd letter (by decide)
      rw [nesting_cons_of_ne opens closes]
      exact ih fun other member => letters other (List.mem_cons_of_mem _ member)

@[simp] theorem IsName.nesting {name : List UInt8} (isName : IsName name) :
    nesting name = 0 :=
  nesting_letters isName.letters

theorem Separates.nesting {tree : ClassTree} {separator : UInt8}
    (separates : Separates tree separator) (rest : List UInt8) :
    nesting (separator :: rest) = nesting rest := by
  obtain rfl | ⟨rfl, _⟩ := separates <;> exact nesting_cons_of_ne (by decide) (by decide) rest

mutual

theorem Derives.nesting {tree : ClassTree} {text : List UInt8} :
    Derives tree text → nesting text = 0
  | .bare isName => isName.nesting
  | .applied isName inside => by simp [isName.nesting, inside.nesting]

theorem DerivesArguments.nesting {trees : List ClassTree} {text : List UInt8} :
    DerivesArguments trees text → nesting text = 0
  | .last derives => derives.nesting
  | .more derives separates others => by
      rw [nesting_append, derives.nesting, separates.nesting, others.nesting, Int.zero_add]

end

theorem DerivesDone.nesting {done : List ClassTree} {text : List UInt8}
    (arguments : DerivesDone done text) : nesting text = 0 := by
  induction arguments with
  | nil => rfl
  | append earlier derives separates ih => simp [ih, derives.nesting, separates.nesting]

theorem Opens.nesting {stack : List Frame} {before : List UInt8} (opens : Opens stack before) :
    nesting before = stack.length := by
  induction opens with
  | nil => rfl
  | cons opens isName arguments ih => simp [ih, isName.nesting, arguments.nesting]

mutual

theorem Derives.ne_zero {tree : ClassTree} {text : List UInt8} :
    Derives tree text → (0 : UInt8) ∉ text
  | .bare isName => fun member => absurd (isName.letters 0 member) (by decide)
  | .applied isName inside => by
      have outside : (0 : UInt8) ∉ _ := fun member => absurd (isName.letters 0 member) (by decide)
      simp [outside, inside.ne_zero, parenOpen, parenClose]

theorem DerivesArguments.ne_zero {trees : List ClassTree} {text : List UInt8} :
    DerivesArguments trees text → (0 : UInt8) ∉ text
  | .last derives => derives.ne_zero
  | .more derives separates others => by
      obtain rfl | ⟨rfl, _⟩ := separates <;>
        simp [derives.ne_zero, others.ne_zero, comma, colon]

end

inductive Misparsed : List UInt8 → Prop
  /-- A separator outside of any parentheses, after a bare name. -/
  | separator {name : List UInt8} {separator : UInt8} (isName : IsName name)
      (separates : separator = comma ∨ separator = colon) (rest : List UInt8) :
      Misparsed (name ++ separator :: rest)
  /-- A parenthesis that closes nothing, after a bare name. -/
  | close {name rest : List UInt8} (isName : IsName name)
      (ends : ∀ ch ∈ rest.head?, ch = comma ∨ ch = parenClose ∨ ch = 0) :
      Misparsed (name ++ parenClose :: rest)
  /-- The string ends, or is cut short by a NUL, after a complete argument of nodes of which
  some may be still open. -/
  | ends {stack : List Frame} {tree : ClassTree} {before text rest : List UInt8}
      (opens : Opens stack before) (derives : Derives tree text)
      (ends : stack ≠ [] ∧ rest = [] ∨ rest.head? = some 0) :
      Misparsed (before ++ (text ++ rest))

structure ParsesByGrammar (validator : List UInt8) : Prop where
  accepts_iff : (∃ nodes, parseClassName validator = .success nodes) ↔
    ∃ tree, Derives tree validator
  derivation : ∀ {tree}, Derives tree validator →
    parseClassName validator = .success (tree.nodes none none none 0)
  throws : (¬∃ nodes, parseClassName validator = .success nodes) →
    ∃ error, parseClassName validator = .failure error
  dereferences : parseClassName validator ≠ .nullDereference

inductive Explained (validator : List UInt8) : ParseResult → Prop
  | derived {tree : ClassTree} (derives : Derives tree validator) :
      Explained validator (.success (tree.nodes none none none 0))
  | failed (error : ParseError) : Explained validator (.failure error)
  | misparsed (misparsed : Misparsed validator) (result : ParseResult) :
      Explained validator result

inductive Reading (validator : List UInt8) : ParserState → List UInt8 → Prop
  | atName {stack : List Frame} {before str : List UInt8} (opens : Opens stack before)
      (whole : validator = before ++ str) : Reading validator (atName stack) str
  | atTree {stack : List Frame} {tree : ClassTree} {before text str : List UInt8}
      (opens : Opens stack before) (derives : Derives tree text)
      (whole : validator = before ++ (text ++ str)) : Reading validator (atTree stack tree) str
  | aboveRoot {name str : List UInt8} (isName : IsName name)
      (whole : validator = name ++ parenClose :: str) :
      Reading validator (aboveRoot name) str

def StepExplained (validator : List UInt8) (state : ParserState) (rest : List UInt8) :
    ParseStep → Prop
  | .continues after => Reading validator after rest
  | .breaks => Explained validator (.success state.nodes)
  | .fails _ => True
  | .nullDereference => Misparsed validator

theorem DerivesDone.followed {done trees : List ClassTree} {before text : List UInt8}
    (earlier : DerivesDone done before) (others : DerivesArguments trees text) :
    DerivesArguments (done ++ trees) (before ++ text) := by
  induction earlier generalizing trees text with
  | nil => exact others
  | append earlier derives separates ih =>
      have joined := ih (.more derives separates others)
      simpa [List.append_assoc] using joined

theorem Derives.of_bare {name text : List UInt8} (derives : Derives (.node name []) text) :
    IsName name ∧ text = name := by
  cases derives with
  | bare isName => exact ⟨isName, rfl⟩
  | applied isName inside => cases inside

variable {validator : List UInt8}

theorem reading_separator {frame : Frame} {outer : List Frame} {tree : ClassTree}
    {before text rest : List UInt8} {separator : UInt8} (opens : Opens (frame :: outer) before)
    (derives : Derives tree text) (separates : Separates tree separator)
    (whole : validator = before ++ (text ++ separator :: rest)) :
    Reading validator (atName ({ frame with done := frame.done ++ [tree] } :: outer)) rest := by
  cases opens with
  | cons opens isName arguments =>
      apply Reading.atName (opens.cons isName (arguments.append derives separates))
      simp [whole, List.append_assoc]

theorem reading_close {frame : Frame} {outer : List Frame} {tree : ClassTree}
    {before text rest : List UInt8} (opens : Opens (frame :: outer) before)
    (derives : Derives tree text) (whole : validator = before ++ (text ++ parenClose :: rest)) :
    Reading validator (atTree outer (.node frame.name (frame.done ++ [tree]))) rest := by
  cases opens with
  | cons opens isName arguments =>
      apply Reading.atTree opens (.applied isName (arguments.followed (.last derives)))
      simp [whole, List.append_assoc]

theorem explained_end {stack : List Frame} {tree : ClassTree} {before text rest : List UInt8}
    (opens : Opens stack before) (derives : Derives tree text)
    (whole : validator = before ++ (text ++ rest)) (ends : rest = [] ∨ rest.head? = some 0) :
    Explained validator (.success (atTree stack tree).nodes) := by
  subst whole
  obtain rfl | zero := ends
  · cases opens with
    | nil =>
        have derived : Derives tree ([] ++ (text ++ [])) := by simpa using derives
        exact .derived derived
    | cons opens isName arguments =>
        exact .misparsed (.ends (opens.cons isName arguments) derives
          (Or.inl ⟨List.cons_ne_nil _ _, rfl⟩)) _
  · exact .misparsed (.ends opens derives (Or.inr zero)) _

theorem step_atName {stack : List Frame} {before str rest : List UInt8} {token : Token}
    (opens : Opens stack before) (whole : validator = before ++ str)
    (reads : Reads str token rest) :
    StepExplained validator (atName stack) rest (parseToken (atName stack) token) := by
  cases reads with
  | name isName boundary =>
      rw [parseToken_name]
      exact .atTree opens (.bare isName) whole
  | parenOpen | parenClose | comma | colon | endOfString | illegal => exact trivial

theorem step_bare {stack : List Frame} {name before str rest : List UInt8} {token : Token}
    (opens : Opens stack before) (isName : IsName name)
    (whole : validator = before ++ (name ++ str)) (reads : Reads str token rest) :
    StepExplained validator (atTree stack (.node name [])) rest
      (parseToken (atTree stack (.node name [])) token) := by
  have derives : Derives (.node name []) name := .bare isName
  cases reads with
  | name | illegal => exact trivial
  | parenOpen =>
      rw [parseToken_open]
      exact .atName (opens.cons isName .nil) (by simp [whole])
  | comma =>
      cases stack with
      | nil =>
          cases opens
          subst whole
          exact Misparsed.separator isName (Or.inl rfl) rest
      | cons frame outer =>
          rw [parseToken_separator frame outer _ (Or.inl rfl)]
          exact reading_separator opens derives (Or.inl rfl) whole
  | colon =>
      cases stack with
      | nil =>
          cases opens
          subst whole
          exact Misparsed.separator isName (Or.inr rfl) rest
      | cons frame outer =>
          rw [parseToken_separator frame outer _ (Or.inr ⟨rfl, rfl⟩)]
          exact reading_separator opens derives (Or.inr ⟨rfl, rfl⟩) whole
  | parenClose =>
      cases stack with
      | nil =>
          cases opens
          exact .aboveRoot isName whole
      | cons frame outer =>
          rw [parseToken_close]
          exact reading_close opens derives whole
  | endOfString ends => exact explained_end opens derives whole ends

theorem step_applied {stack : List Frame} {name : List UInt8} {child : ClassTree}
    {children : List ClassTree} {before text str rest : List UInt8} {token : Token}
    (opens : Opens stack before) (derives : Derives (.node name (child :: children)) text)
    (whole : validator = before ++ (text ++ str)) (reads : Reads str token rest) :
    StepExplained validator (atTree stack (.node name (child :: children))) rest
      (parseToken (atTree stack (.node name (child :: children))) token) := by
  cases reads with
  | name | illegal | parenOpen | colon => exact trivial
  | comma =>
      cases stack with
      | nil => exact trivial
      | cons frame outer =>
          rw [parseToken_separator frame outer _ (Or.inl rfl)]
          exact reading_separator opens derives (Or.inl rfl) whole
  | parenClose =>
      cases stack with
      | nil => exact trivial
      | cons frame outer =>
          rw [parseToken_close]
          exact reading_close opens derives whole
  | endOfString ends => exact explained_end opens derives whole ends

theorem step_aboveRoot {name str rest : List UInt8} {token : Token} (isName : IsName name)
    (whole : validator = name ++ parenClose :: str) (reads : Reads str token rest) :
    StepExplained validator (aboveRoot name) rest (parseToken (aboveRoot name) token) := by
  subst whole
  cases reads with
  | name | illegal | parenOpen | colon => exact trivial
  | comma => exact Misparsed.close isName (by simp)
  | parenClose => exact Misparsed.close isName (by simp)
  | endOfString ends =>
      refine .misparsed (.close isName ?_) _
      obtain rfl | zero := ends
      · simp
      · simp [zero]

theorem reading_step {state : ParserState} {str rest : List UInt8} {token : Token}
    (reading : Reading validator state str) (reads : Reads str token rest) :
    StepExplained validator state rest (parseToken state token) := by
  cases reading with
  | atName opens whole => exact step_atName opens whole reads
  | @atTree _ tree _ _ _ opens derives whole =>
      obtain ⟨name, children⟩ := tree
      cases children with
      | nil =>
          obtain ⟨isName, rfl⟩ := derives.of_bare
          exact step_bare opens isName whole reads
      | cons child children => exact step_applied opens derives whole reads
  | aboveRoot isName whole => exact step_aboveRoot isName whole reads

theorem reading_continues {state after : ParserState} {str : List UInt8}
    (reading : Reading validator state str)
    (step : parseToken state (nextToken str).1 = .continues after) :
    Reading validator after (nextToken str).2 := by
  have explained := reading_step reading (reads_nextToken str)
  rwa [step] at explained

theorem reading_explained (validatorLen : Nat) {state : ParserState} {str : List UInt8}
    (reading : Reading validator state str) :
    Explained validator (parseLoop validatorLen state str) := by
  obtain ⟨last, rest, reading, ends⟩ :=
    parseLoop_reaches validatorLen reading_continues reading
  have explained := reading_step reading (reads_nextToken rest)
  generalize parseLoop validatorLen state str = result at ends ⊢
  cases ends with
  | breaks step =>
      rw [step] at explained
      exact explained
  | fails error => exact .failed error
  | nullDereference step =>
      rw [step] at explained
      exact .misparsed explained _

theorem parseClassName_explained (validator : List UInt8) :
    Explained validator (parseClassName validator) :=
  reading_explained validator.length (.atName .nil rfl)

theorem nextToken_of_ends {rest : List UInt8} (ends : rest = [] ∨ rest.head? = some 0) :
    nextToken rest = (.endOfString, rest) := by
  obtain rfl | zero := ends
  · rfl
  · cases rest with
    | nil => cases zero
    | cons ch rest =>
        obtain rfl := Option.some.inj zero
        rfl

theorem boundary_of_ends {rest : List UInt8} (ends : rest = [] ∨ rest.head? = some 0) :
    Boundary rest := by
  intro ch member
  obtain rfl | zero := ends
  · cases member
  · obtain rfl := Option.some.inj (zero.symm.trans (Option.mem_def.mp member))
    decide

theorem parseLoop_ends {validatorLen : Nat} {state : ParserState} {rest : List UInt8}
    (step : parseToken state .endOfString = .breaks) (ends : rest = [] ∨ rest.head? = some 0) :
    parseLoop validatorLen state rest = .success state.nodes :=
  parseLoop_breaks (nextToken_of_ends ends) step

/-- Nodes that are still open are accepted at the end of the string. -/
theorem parseClassName_ends {stack : List Frame} {tree : ClassTree}
    {before text rest : List UInt8} (opens : Opens stack before) (derives : Derives tree text)
    (ends : rest = [] ∨ rest.head? = some 0) :
    parseClassName (before ++ (text ++ rest)) = .success (atTree stack tree).nodes := by
  rw [parseClassName, parseLoop_opens opens,
    parseLoop_derives derives stack (boundary_of_ends ends)]
  exact parseLoop_ends (atTree_ends stack tree) ends

theorem parseClassName_derives {tree : ClassTree} (derives : Derives tree validator) :
    parseClassName validator = .success (tree.nodes none none none 0) := by
  have read := parseClassName_ends .nil derives (Or.inl rfl)
  rw [List.append_nil, List.nil_append] at read
  exact read

theorem parseClassName_separator {name : List UInt8} {separator : UInt8} (isName : IsName name)
    (separates : separator = comma ∨ separator = colon) (rest : List UInt8) :
    parseClassName (name ++ separator :: rest) = .nullDereference := by
  have root := parseToken_root_bare name
  obtain rfl | rfl := separates
  · rw [parseClassName, ← at_root, parseLoop_name isName [] (boundary_cons (by decide) rest)]
    exact parseLoop_nullDereference rfl root.1
  · rw [parseClassName, ← at_root, parseLoop_name isName [] (boundary_cons (by decide) rest)]
    exact parseLoop_nullDereference rfl root.2.1

theorem parseClassName_close {name : List UInt8} (isName : IsName name) (rest : List UInt8) :
    parseClassName (name ++ parenClose :: rest) =
      parseLoop (name ++ parenClose :: rest).length (aboveRoot name) rest := by
  rw [parseClassName, ← at_root, parseLoop_name isName [] (boundary_cons (by decide) rest)]
  exact parseLoop_continues rfl (parseToken_root_bare name).2.2

theorem not_derives_of_nesting (nested : nesting validator ≠ 0) :
    ¬∃ tree, Derives tree validator := by
  rintro ⟨tree, derives⟩
  exact nested derives.nesting

theorem not_derives_of_zero (zero : (0 : UInt8) ∈ validator) :
    ¬∃ tree, Derives tree validator := by
  rintro ⟨tree, derives⟩
  exact derives.ne_zero zero

theorem ParsesByGrammar.derives (parses : ParsesByGrammar validator) {nodes : List ParseNode}
    (success : parseClassName validator = .success nodes) : ∃ tree, Derives tree validator :=
  parses.accepts_iff.mp ⟨nodes, success⟩

theorem Misparsed.not_parsesByGrammar (misparsed : Misparsed validator) :
    ¬ParsesByGrammar validator := by
  intro parses
  cases misparsed with
  | separator isName separates rest =>
      exact parses.dereferences (parseClassName_separator isName separates rest)
  | @close name rest isName ends =>
      have closed := parseClassName_close isName rest
      cases rest with
      | nil =>
          have success := closed.trans (parseLoop_ends rfl (Or.inl rfl))
          refine not_derives_of_nesting ?_ (parses.derives success)
          simp [isName.nesting]
      | cons ch rest =>
          have step := parseToken_aboveRoot name
          obtain rfl | rfl | rfl := ends ch rfl
          · exact parses.dereferences (closed.trans (parseLoop_nullDereference rfl step.1))
          · exact parses.dereferences (closed.trans (parseLoop_nullDereference rfl step.2))
          · have success := closed.trans (parseLoop_ends rfl (Or.inr rfl))
            exact not_derives_of_zero (by simp) (parses.derives success)
  | @ends stack tree before text rest opens derives ends =>
      obtain ⟨open_, rfl⟩ | zero := ends
      · refine not_derives_of_nesting ?_
          (parses.derives (parseClassName_ends opens derives (Or.inl rfl)))
        simpa [opens.nesting, derives.nesting] using open_
      · have member : (0 : UInt8) ∈ rest := List.mem_of_mem_head? zero
        exact not_derives_of_zero (by simp [member])
          (parses.derives (parseClassName_ends opens derives (Or.inr zero)))

theorem parsesByGrammar_iff (validator : List UInt8) :
    ParsesByGrammar validator ↔ ¬Misparsed validator := by
  constructor
  · intro parses misparsed
    exact misparsed.not_parsesByGrammar parses
  · intro correct
    have explained := parseClassName_explained validator
    generalize result : parseClassName validator = outcome at explained
    cases explained with
    | @derived tree derives =>
        refine ⟨⟨fun _ => ⟨tree, derives⟩, fun _ => ⟨_, result⟩⟩, parseClassName_derives, ?_, ?_⟩
        · exact fun refused => absurd ⟨_, result⟩ refused
        · simp [result]
    | failed error =>
        have refused : ¬∃ nodes, parseClassName validator = .success nodes := by simp [result]
        refine ⟨⟨fun accepted => absurd accepted refused, ?_⟩, parseClassName_derives,
          fun _ => ⟨error, result⟩, by simp [result]⟩
        rintro ⟨tree, derives⟩
        exact ⟨_, parseClassName_derives derives⟩
    | misparsed misparsed => exact absurd misparsed correct

/-- `A(B` is read as if it were closed, and `A,B` reads the parent of the root. -/
theorem unclosed_accepted :
    (∃ nodes, parseClassName [0x41, parenOpen, 0x42] = .success nodes) ∧
      (¬∃ tree, Derives tree [0x41, parenOpen, 0x42]) ∧
      parseClassName [0x41, comma, 0x42] = .nullDereference := by
  have outer : IsName [0x41] := ⟨by decide, by simp⟩
  have inner : IsName [0x42] := ⟨by decide, by simp⟩
  have opens : Opens [{ name := [0x41], done := [] }] [0x41, parenOpen] := .cons .nil outer .nil
  refine ⟨⟨_, parseClassName_ends opens (.bare inner) (Or.inl rfl)⟩,
    not_derives_of_nesting (by decide), ?_⟩
  exact parseClassName_separator outer (Or.inl rfl) [0x42]

end PhpDriver
