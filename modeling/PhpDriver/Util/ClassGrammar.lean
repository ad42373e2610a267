import Mathlib.Data.List.TakeWhile
import PhpDriver.Util.ClassTree

namespace PhpDriver

open ClassTree Punctuation

/-! The grammar of class names with arguments, and which strings `parseClassName` reads by
it. -/

def IsName : List UInt8 → Prop
  | [] => False
  | c :: cs => isalnum c ∧ ∀ ch ∈ cs, isletter ch

/-- A colon separates after a bare name only. -/
def Separates (tree : ClassTree) (separator : UInt8) : Prop :=
  separator = comma ∨ separator = colon ∧ tree.children = []

mutual

inductive Derives : ClassTree → List UInt8 → Prop
  | bare {name : List UInt8} (isName : IsName name) : Derives (.node name []) name
  | applied {name : List UInt8} {children : List ClassTree} {text : List UInt8}
      (isName : IsName name) (inside : DerivesArguments children text) :
      Derives (.node name children) (name ++ parenOpen :: (text ++ [parenClose]))

inductive DerivesArguments : List ClassTree → List UInt8 → Prop
  | last {tree : ClassTree} {text : List UInt8} (derives : Derives tree text) :
      DerivesArguments [tree] text
  | more {tree : ClassTree} {trees : List ClassTree} {text rest : List UInt8}
      {separator : UInt8} (derives : Derives tree text) (separates : Separates tree separator)
      (others : DerivesArguments trees rest) :
      DerivesArguments (tree :: trees) (text ++ separator :: rest)

end

inductive DerivesDone : List ClassTree → List UInt8 → Prop
  | nil : DerivesDone [] []
  | append {done : List ClassTree} {before : List UInt8} {tree : ClassTree}
      {text : List UInt8} {separator : UInt8} (earlier : DerivesDone done before)
      (derives : Derives tree text) (separates : Separates tree separator) :
      DerivesDone (done ++ [tree]) (before ++ (text ++ [separator]))

/-- A text up to where an argument of the innermost of some open nodes begins. -/
inductive Opens : List Frame → List UInt8 → Prop
  | nil : Opens [] []
  | cons {outer : List Frame} {before name : List UInt8} {done : List ClassTree}
      {text : List UInt8} (opens : Opens outer before) (isName : IsName name)
      (arguments : DerivesDone done text) :
      Opens ({ name, done } :: outer) (before ++ (name ++ parenOpen :: text))

def Boundary (rest : List UInt8) : Prop :=
  ∀ ch ∈ rest.head?, isletter ch = false

theorem IsName.letters {name : List UInt8} (isName : IsName name) :
    ∀ ch ∈ name, isletter ch := by
  cases name with
  | nil => cases isName
  | cons c cs =>
      intro ch member
      rcases List.mem_cons.mp member with rfl | later
      · simp [isletter, isName.1]
      · exact isName.2 ch later

theorem nextToken_name {name : List UInt8} (isName : IsName name) {rest : List UInt8}
    (boundary : Boundary rest) : nextToken (name ++ rest) = (.name name, rest) := by
  cases name with
  | nil => cases isName
  | cons c cs =>
      have letters := isName.letters
      have stops : rest.takeWhile isletter = [] ∧ rest.dropWhile isletter = rest := by
        cases rest with
        | nil => exact ⟨rfl, rfl⟩
        | cons ch others =>
            have outside : isletter ch = false := boundary ch rfl
            simp [outside]
      rw [List.cons_append, nextToken, if_pos isName.1, ← List.cons_append,
        List.takeWhile_append_of_pos letters, List.dropWhile_append_of_pos letters, stops.1,
        stops.2, List.append_nil]

/-- A token, and how the string it comes from is made up of it and the rest. -/
inductive Reads : List UInt8 → Token → List UInt8 → Prop
  | name {name rest : List UInt8} (isName : IsName name) (boundary : Boundary rest) :
      Reads (name ++ rest) (.name name) rest
  | parenOpen (rest : List UInt8) : Reads (parenOpen :: rest) .parenOpen rest
  | parenClose (rest : List UInt8) : Reads (parenClose :: rest) .parenClose rest
  | comma (rest : List UInt8) : Reads (comma :: rest) .comma rest
  | colon (rest : List UInt8) : Reads (colon :: rest) .colon rest
  | endOfString {rest : List UInt8} (ends : rest = [] ∨ rest.head? = some 0) :
      Reads rest .endOfString rest
  | illegal (character : UInt8) (rest : List UInt8) : Reads rest (.illegal character) rest

theorem reads_nextToken (str : List UInt8) :
    Reads str (nextToken str).1 (nextToken str).2 := by
  cases str with
  | nil => exact .endOfString (Or.inl rfl)
  | cons c cs =>
      rw [nextToken]
      split
      · rename_i alnum
        have letter : isletter c = true := by simp [isletter, alnum]
        have isName : IsName ((c :: cs).takeWhile isletter) := by
          rw [List.takeWhile_cons_of_pos letter]
          exact ⟨alnum, fun ch member => List.mem_takeWhile_imp member⟩
        have boundary : Boundary ((c :: cs).dropWhile isletter) := by
          intro ch member
          have stops := List.head?_dropWhile_not isletter (c :: cs)
          rw [Option.mem_def.mp member] at stops
          simpa using stops
        have whole := Reads.name isName boundary
        rwa [List.takeWhile_append_dropWhile] at whole
      · repeat' split
        all_goals simp_all only
        · exact .endOfString (Or.inr rfl)
        · exact .parenOpen cs
        · exact .parenClose cs
        · exact .comma cs
        · exact .colon cs
        · exact .illegal c _

section

variable {validatorLen : Nat} {state : ParserState} {str rest : List UInt8} {token : Token}

theorem parseToken_illegal (state : ParserState) (character : UInt8) :
    ∃ expected, parseToken state (.illegal character) = .fails expected := by
  rw [parseToken]
  cases state.phase with
  | className => exact ⟨_, rfl⟩
  | afterClass => exact ⟨_, rfl⟩
  | afterParens => exact ⟨_, rfl⟩

theorem parseLoop_eq (next : nextToken str = (token, rest))
    (legal : ∀ character, token ≠ .illegal character) :
    parseLoop validatorLen state str =
      match parseToken state token with
      | .continues after => parseLoop validatorLen after rest
      | .breaks => .success state.nodes
      | .fails expected =>
          .failure (.unexpected token.describe (validatorLen - rest.length - 1) expected)
      | .nullDereference => .nullDereference := by
  rw [parseLoop]
  split
  · rename_i character _ same
    rw [next] at same
    exact absurd (Prod.mk.inj same).1 (legal character)
  · rename_i same
    rw [next] at same
    obtain ⟨rfl, rfl⟩ := Prod.mk.inj same
    split <;> simp_all

theorem parseLoop_continues {after : ParserState} (next : nextToken str = (token, rest))
    (step : parseToken state token = .continues after) :
    parseLoop validatorLen state str = parseLoop validatorLen after rest := by
  rw [parseLoop_eq next (parseToken_of_stop step).2, step]

/-- A token that ends the loop in anything but an exception is no illegal one. -/
theorem legal_of_ne_fails (succeeds : ∀ expected, parseToken state token ≠ .fails expected)
    (character : UInt8) : token ≠ .illegal character := by
  rintro rfl
  obtain ⟨expected, fails⟩ := parseToken_illegal state character
  exact succeeds expected fails

theorem parseLoop_breaks (next : nextToken str = (token, rest))
    (step : parseToken state token = .breaks) :
    parseLoop validatorLen state str = .success state.nodes := by
  rw [parseLoop_eq next (@legal_of_ne_fails state token (by simp [step])), step]

theorem parseLoop_nullDereference (next : nextToken str = (token, rest))
    (step : parseToken state token = .nullDereference) :
    parseLoop validatorLen state str = .nullDereference := by
  rw [parseLoop_eq next (@legal_of_ne_fails state token (by simp [step])), step]

theorem parseLoop_fails {expected : String} (next : nextToken str = (token, rest))
    (step : parseToken state token = .fails expected) :
    ∃ error, parseLoop validatorLen state str = .failure error := by
  by_cases legal : ∀ character, token ≠ .illegal character
  · rw [parseLoop_eq next legal, step]
    exact ⟨_, rfl⟩
  · obtain ⟨character, same⟩ := not_forall.mp legal
    rw [not_not] at same
    subst same
    rw [parseLoop]
    split
    · exact ⟨_, rfl⟩
    · rename_i other same
      rw [next] at same
      exact absurd (Prod.mk.inj same).1.symm (other character)

inductive LoopEnd (last : ParserState) (token : Token) : ParseResult → Prop
  | breaks (step : parseToken last token = .breaks) : LoopEnd last token (.success last.nodes)
  | fails (error : ParseError) : LoopEnd last token (.failure error)
  | nullDereference (step : parseToken last token = .nullDereference) :
      LoopEnd last token .nullDereference

/-- What is kept wherever the loop goes on still holds where it ends. The induction is on
what is left of the string. -/
theorem parseLoop_reaches (validatorLen : Nat) {holds : ParserState → List UInt8 → Prop}
    (keeps : ∀ {state after : ParserState} {str : List UInt8}, holds state str →
      parseToken state (nextToken str).1 = .continues after → holds after (nextToken str).2)
    {state : ParserState} {str : List UInt8} (initial : holds state str) :
    ∃ last rest, holds last rest ∧
      LoopEnd last (nextToken rest).1 (parseLoop validatorLen state str) := by
  cases step : parseToken state (nextToken str).1 with
  | continues after =>
      have stop := parseToken_of_stop step
      have shorter : (nextToken str).2.length < str.length :=
        length_nextToken_lt rfl stop.1 stop.2
      rw [parseLoop_continues rfl step]
      exact parseLoop_reaches validatorLen keeps (keeps initial step)
  | breaks =>
      rw [parseLoop_breaks rfl step]
      exact ⟨state, str, initial, .breaks step⟩
  | fails expected =>
      obtain ⟨error, same⟩ := @parseLoop_fails validatorLen _ _ _ _ _ rfl step
      rw [same]
      exact ⟨state, str, initial, .fails error⟩
  | nullDereference =>
      rw [parseLoop_nullDereference rfl step]
      exact ⟨state, str, initial, .nullDereference step⟩
termination_by str.length

end

theorem boundary_cons {ch : UInt8} (outside : isletter ch = false) (rest : List UInt8) :
    Boundary (ch :: rest) := by
  intro other member
  obtain rfl := Option.some.inj (Option.mem_def.mp member)
  exact outside

theorem Separates.boundary {tree : ClassTree} {separator : UInt8}
    (separates : Separates tree separator) : isletter separator = false := by
  obtain rfl | ⟨rfl, _⟩ := separates <;> decide

theorem Separates.token {tree : ClassTree} {separator : UInt8}
    (separates : Separates tree separator) (rest : List UInt8) :
    ∃ token, nextToken (separator :: rest) = (token, rest) ∧
      (token = .comma ∨ token = .colon ∧ tree.children = []) := by
  obtain rfl | ⟨rfl, bare⟩ := separates
  · exact ⟨.comma, rfl, Or.inl rfl⟩
  · exact ⟨.colon, rfl, Or.inr ⟨rfl, bare⟩⟩

variable {validatorLen : Nat}

theorem parseLoop_name {name : List UInt8} (isName : IsName name) (stack : List Frame)
    {rest : List UInt8} (boundary : Boundary rest) :
    parseLoop validatorLen (atName stack) (name ++ rest) =
      parseLoop validatorLen (atTree stack (.node name [])) rest :=
  parseLoop_continues (nextToken_name isName boundary) (parseToken_name stack name)

theorem parseLoop_open {name : List UInt8} (isName : IsName name) (stack : List Frame)
    (rest : List UInt8) :
    parseLoop validatorLen (atName stack) (name ++ parenOpen :: rest) =
      parseLoop validatorLen (atName ({ name, done := [] } :: stack)) rest := by
  rw [parseLoop_name isName stack (boundary_cons (by decide) rest)]
  exact parseLoop_continues rfl (parseToken_open stack name)

theorem parseLoop_separator {tree : ClassTree} {separator : UInt8}
    (separates : Separates tree separator) (frame : Frame) (outer : List Frame)
    (rest : List UInt8) :
    parseLoop validatorLen (atTree (frame :: outer) tree) (separator :: rest) =
      parseLoop validatorLen (atName ({ frame with done := frame.done ++ [tree] } :: outer))
        rest := by
  obtain ⟨token, next, separates⟩ := separates.token rest
  exact parseLoop_continues next (parseToken_separator frame outer tree separates)

mutual

theorem parseLoop_derives {tree : ClassTree} {text : List UInt8} :
    Derives tree text → ∀ (stack : List Frame) {rest : List UInt8}, Boundary rest →
      parseLoop validatorLen (atName stack) (text ++ rest) =
        parseLoop validatorLen (atTree stack tree) rest
  | .bare isName, stack, rest, boundary => parseLoop_name isName stack boundary
  | @Derives.applied name _ _ isName inside, stack, rest, _ => by
      rw [List.append_assoc, List.cons_append, List.append_assoc, parseLoop_open isName stack]
      exact parseLoop_arguments inside { name, done := [] } stack rest

theorem parseLoop_arguments {trees : List ClassTree} {text : List UInt8} :
    DerivesArguments trees text → ∀ (frame : Frame) (outer : List Frame) (rest : List UInt8),
      parseLoop validatorLen (atName (frame :: outer)) (text ++ ([parenClose] ++ rest)) =
        parseLoop validatorLen (atTree outer (.node frame.name (frame.done ++ trees))) rest
  | .last derives, frame, outer, rest => by
      rw [List.singleton_append,
        parseLoop_derives derives (frame :: outer) (boundary_cons (by decide) rest)]
      exact parseLoop_continues rfl (parseToken_close frame outer _)
  | @DerivesArguments.more tree _ _ _ _ derives separates others, frame, outer, rest => by
      have whole := parseLoop_arguments others { frame with done := frame.done ++ [tree] } outer
        rest
      rw [List.append_assoc, List.cons_append, parseLoop_derives derives (frame :: outer)
        (boundary_cons separates.boundary _), parseLoop_separator separates, whole,
        List.append_assoc]
      rfl

end

theorem parseLoop_done {done : List ClassTree} {text : List UInt8}
    (arguments : DerivesDone done text) (name : List UInt8) (outer : List Frame)
    (rest : List UInt8) :
    parseLoop validatorLen (atName ({ name, done := [] } :: outer)) (text ++ rest) =
      parseLoop validatorLen (atName ({ name, done } :: outer)) rest := by
  induction arguments generalizing rest with
  | nil => rfl
  | append earlier derives separates ih =>
      rw [List.append_assoc, ih, List.append_assoc, List.singleton_append,
        parseLoop_derives derives _ (boundary_cons separates.boundary _)]
      exact parseLoop_separator separates _ outer rest

theorem parseLoop_opens {stack : List Frame} {before : List UInt8} (opens : Opens stack before)
    (rest : List UInt8) :
    parseLoop validatorLen {} (before ++ rest) = parseLoop validatorLen (atName stack) rest := by
  induction opens generalizing rest with
  | nil => rfl
  | cons opens isName arguments ih =>
      rw [List.append_assoc, ih, List.append_assoc, List.cons_append, parseLoop_open isName,
        parseLoop_done arguments]

end PhpDriver
