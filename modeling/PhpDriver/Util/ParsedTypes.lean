import PhpDriver.Util.CompleteType

namespace PhpDriver

open ClassTree Punctuation

/-! What every string that `php_driver_parse_column_type` is given is made into. -/

def closeAll : List Frame → ClassTree → ClassTree
  | [], tree => tree
  | frame :: outer, tree => closeAll outer (.node frame.name (frame.done ++ [tree]))

/-- The strings that are accepted, with the class they are read as. A NUL ends them early. -/
inductive Accepts : ClassTree → List UInt8 → Prop
  | ends {stack : List Frame} {tree : ClassTree} {before text rest : List UInt8}
      (opens : Opens stack before) (derives : Derives tree text)
      (ends : rest = [] ∨ rest.head? = some 0) :
      Accepts (closeAll stack tree) (before ++ (text ++ rest))
  /-- A parenthesis that closes nothing. -/
  | close {name rest : List UInt8} (isName : IsName name)
      (ends : rest = [] ∨ rest.head? = some 0) :
      Accepts (.node name []) (name ++ parenClose :: rest)

/-- The string goes on outside of the root, the parent of which is then read. -/
inductive LeavesRoot : List UInt8 → Prop
  | separator {name rest : List UInt8} {ch : UInt8} (isName : IsName name)
      (separates : ch = comma ∨ ch = colon) : LeavesRoot (name ++ ch :: rest)
  | close {name rest : List UInt8} {ch : UInt8} (isName : IsName name)
      (leaves : ch = comma ∨ ch = parenClose) : LeavesRoot (name ++ parenClose :: ch :: rest)

theorem atTree_closeAll (stack : List Frame) (tree : ClassTree) :
    (atTree stack tree).nodes = (closeAll stack tree).nodes none none none 0 := by
  induction stack generalizing tree with
  | nil => rfl
  | cons frame outer ih => rw [atTree_nodes, ih, closeAll]

theorem Accepts.parses {tree : ClassTree} {validator : List UInt8}
    (accepts : Accepts tree validator) :
    parseClassName validator = .success (tree.nodes none none none 0) := by
  cases accepts with
  | ends opens derives ends => rw [parseClassName_ends opens derives ends, atTree_closeAll]
  | close isName ends => exact (parseClassName_close isName _).trans (parseLoop_ends rfl ends)

theorem LeavesRoot.parses {validator : List UInt8} (leaves : LeavesRoot validator) :
    parseClassName validator = .nullDereference := by
  cases leaves with
  | separator isName separates => exact parseClassName_separator isName separates _
  | @close name rest ch isName leaves =>
      have step := parseToken_aboveRoot name
      rw [parseClassName_close isName]
      obtain rfl | rfl := leaves
      · exact parseLoop_nullDereference rfl step.1
      · exact parseLoop_nullDereference rfl step.2

theorem parseClassName_cases (validator : List UInt8) :
    (∃ tree, Accepts tree validator) ∨ LeavesRoot validator ∨
      ∃ error, parseClassName validator = .failure error := by
  have explained := parseClassName_explained validator
  generalize parsed : parseClassName validator = result at explained
  cases explained with
  | @derived tree derives =>
      have accepts := Accepts.ends .nil derives (.inl rfl)
      rw [List.append_nil, List.nil_append] at accepts
      exact .inl ⟨tree, accepts⟩
  | failed error => exact .inr (.inr ⟨error, rfl⟩)
  | misparsed misparsed =>
      cases misparsed with
      | separator isName separates rest => exact .inr (.inl (.separator isName separates))
      | @close name rest isName ends =>
          cases rest with
          | nil => exact .inl ⟨_, .close isName (.inl rfl)⟩
          | cons ch rest =>
              obtain rfl | rfl | rfl := ends ch rfl
              · exact .inr (.inl (.close isName (.inl rfl)))
              · exact .inr (.inl (.close isName (.inr rfl)))
              · exact .inl ⟨_, .close isName (.inr rfl)⟩
      | ends opens derives ends =>
          refine .inl ⟨_, .ends opens derives ?_⟩
          obtain ⟨_, last⟩ | zero := ends
          · exact .inl last
          · exact .inr zero

/-- A well-formed type or an exception comes of the string. -/
def IsSound (validator : List UInt8) : Prop :=
  (parseColumnType validator).Sound

theorem Accepts.isSound_iff {tree : ClassTree} {validator : List UInt8}
    (accepts : Accepts tree validator) :
    IsSound validator ↔ ∀ inner, tree.unwrapped = some inner → inner.Complete := by
  rw [IsSound, parseColumnType, accepts.parses]
  simp only [nodesFrom_tree]
  exact columnType_sound tree [] false false

theorem parsed_type_sound_iff (validator : List UInt8) :
    IsSound validator ↔ ¬ LeavesRoot validator ∧
      ∀ tree, Accepts tree validator → ∀ inner, tree.unwrapped = some inner → inner.Complete := by
  constructor
  · intro sound
    refine ⟨fun leaves => ?_, fun tree accepts => accepts.isSound_iff.mp sound⟩
    rw [IsSound, parseColumnType, leaves.parses] at sound
    exact sound
  · rintro ⟨inside, complete⟩
    obtain ⟨tree, accepts⟩ | leaves | ⟨error, refused⟩ := parseClassName_cases validator
    · exact accepts.isSound_iff.mpr (complete tree accepts)
    · exact absurd leaves inside
    · rw [IsSound, parseColumnType, refused]
      trivial

/-- `ListType` without its argument. -/
theorem bare_list_is_not_sound :
    parseColumnType (marshal "ListType") = .success false false (.list .undef) ∧
      ¬ IsSound (marshal "ListType") := by
  have isName : IsName (marshal "ListType") := isName_marshal (by decide +kernel)
  have known := @readInFull ("ListType", .list) (by decide)
  have parsed : parseColumnType (marshal "ListType") = .success false false (.list .undef) := by
    rw [parseColumnType_derives (.bare isName),
      @columnType_own (.node (marshal "ListType") []) known.1, createType, known.1, known.2]
    rfl
  refine ⟨parsed, fun sound => ?_⟩
  rw [IsSound, parsed, ColumnResult.Sound, ColumnType.WellFormed, ColumnType.WellFormed] at sound
  exact sound

end PhpDriver
