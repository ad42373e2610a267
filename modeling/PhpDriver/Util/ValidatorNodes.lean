import PhpDriver.Util.MarshalType

namespace PhpDriver

open Data ClassTree Punctuation

/-! The nodes that a validator is read into. -/

theorem nodesFrom_none (nodes : List ParseNode) (fuel : Nat) : nodesFrom nodes fuel none = [] := by
  cases fuel <;> rfl

theorem nodesFrom_childNodes (fuel : Nat) {parent : Nat} {prev : Option Nat} {base : Nat}
    {trees : List ClassTree} {before after : List ParseNode} (nonempty : trees ≠ [])
    (place : before.length = base) (enough : sizes trees ≤ fuel) :
    nodesFrom (before ++ childNodes parent prev none base trees ++ after) fuel (some base) =
      trees := by
  induction fuel generalizing parent prev base trees before after with
  | zero =>
      cases trees with
      | nil => exact absurd rfl nonempty
      | cons tree rest =>
          cases tree with
          | node name children =>
              rw [sizes, size] at enough
              omega
  | succ fuel ih =>
      cases trees with
      | nil => exact absurd rfl nonempty
      | cons tree rest =>
          cases tree with
          | node name children =>
              rw [sizes, size] at enough
              rw [childNodes, nodes]
              generalize head : ({ parent := some parent, name := some name
                                   firstChild := if children.isEmpty then none
                                     else some (base + 1)
                                   lastChild := lastOf (base + 1) children
                                   nextSibling := if rest.isEmpty then none
                                     else some (base + (ClassTree.node name children).size)
                                   prevSibling := prev } : ParseNode) = node
              generalize kids : childNodes base none none (base + 1) children = inner
              generalize others : childNodes parent (some base) none
                (base + (ClassTree.node name children).size) rest = outer
              have here : (before ++ (node :: inner ++ outer) ++ after).getD base {} = node := by
                rw [List.cons_append, List.append_assoc, List.cons_append, ← place]
                exact getD_length_append before node _ _
              have firstChild : node.firstChild =
                  if children.isEmpty then none else some (base + 1) := by
                rw [← head]
              have nextSibling : node.nextSibling = if rest.isEmpty then none
                  else some (base + (ClassTree.node name children).size) := by
                rw [← head]
              have first : nodesFrom (before ++ (node :: inner ++ outer) ++ after) fuel
                  node.firstChild = children := by
                rw [firstChild]
                split
                · rename_i bare
                  rw [nodesFrom_none, List.isEmpty_iff.mp bare]
                · rename_i more
                  have split : before ++ (node :: inner ++ outer) ++ after =
                      (before ++ [node]) ++ childNodes base none none (base + 1) children ++
                        (outer ++ after) := by
                    rw [kids]
                    simp
                  rw [split]
                  exact ih (by simpa using more) (by simp [place]) (by omega)
              have next : nodesFrom (before ++ (node :: inner ++ outer) ++ after) fuel
                  node.nextSibling = rest := by
                rw [nextSibling]
                split
                · rename_i bare
                  rw [nodesFrom_none, List.isEmpty_iff.mp bare]
                · rename_i more
                  have split : before ++ (node :: inner ++ outer) ++ after =
                      (before ++ node :: inner) ++ childNodes parent (some base) none
                        (base + (ClassTree.node name children).size) rest ++ after := by
                    rw [others]
                    simp
                  have length : (before ++ node :: inner).length =
                      base + (ClassTree.node name children).size := by
                    rw [List.length_append, List.length_cons, ← kids, length_childNodes, place,
                      size]
                    omega
                  rw [split]
                  exact ih (by simpa using more) length (by omega)
              have named : node.name = some name := by rw [← head]
              rw [nodesFrom, here, first, next, named]
              rfl

theorem nodesFrom_tree (tree : ClassTree) :
    nodesFrom (tree.nodes none none none 0) (tree.nodes none none none 0).length (some 0) =
      [tree] := by
  cases tree with
  | node name children =>
      rw [length_nodes, size, Nat.add_comm, nodes, nodesFrom]
      simp only [List.getD_cons_zero, Option.getD_some, nodesFrom_none]
      split
      · rename_i bare
        rw [nodesFrom_none, List.isEmpty_iff.mp bare]
      · rename_i more
        generalize head : ({ parent := none, name := some name, firstChild := some 1
                             lastChild := lastOf 1 children, nextSibling := none
                             prevSibling := none } : ParseNode) = node
        have inside := @nodesFrom_childNodes (sizes children) 0 none 1 children [node] []
          (by simpa using more) rfl (Nat.le_refl _)
        rw [List.append_nil, List.singleton_append] at inside
        rw [inside]

theorem isName_of {text : List UInt8} (nonempty : text ≠ [])
    (starts : ∀ ch ∈ text.head?, isalnum ch = true) (letters : ∀ ch ∈ text, isletter ch = true) :
    IsName text := by
  cases text with
  | nil => exact absurd rfl nonempty
  | cons c cs => exact ⟨starts c rfl, fun ch member => letters ch (List.mem_cons_of_mem c member)⟩

theorem isName_marshal {name : String} (letters : ∀ ch ∈ ascii name, isletter ch = true) :
    IsName (marshal name) := by
  have package : ∀ ch ∈ ascii "org.apache.cassandra.db.marshal.", isletter ch = true := by
    decide +kernel
  have starts : (ascii "org.apache.cassandra.db.marshal.").head? = some 0x6F := by
    decide +kernel
  apply isName_of
  · intro empty
    rw [(List.append_eq_nil_iff.mp empty).1] at starts
    cases starts
  · intro ch member
    rw [marshal, List.head?_append, starts] at member
    obtain rfl := Option.some.inj member
    decide
  · intro ch member
    rcases List.mem_append.mp member with package_ | name_
    · exact package ch package_
    · exact letters ch name_

theorem ScalarType.isName (type : ScalarType) : IsName (marshal type.className) := by
  apply isName_marshal
  cases type <;> decide +kernel

theorem ClassName.isName (className : ClassName) (plain : underscore ∉ className.text)
    (noDollar : dollar ∉ className.text) : IsName className.text := by
  apply isName_of className.nonempty className.starts
  intro ch member
  rcases className.chars ch member with letter | rfl | rfl
  · exact letter
  · exact absurd member plain
  · exact absurd member noDollar

theorem KeyspaceName.isName (keyspace : KeyspaceName) (plain : underscore ∉ keyspace.text) :
    IsName keyspace.text := by
  have alnums : ∀ ch ∈ keyspace.text, isalnum ch = true := by
    intro ch member
    rcases keyspace.chars ch member with alnum | rfl
    · exact alnum
    · exact absurd member plain
  apply isName_of keyspace.nonempty
  · exact fun ch member => alnums ch (List.mem_of_mem_head? member)
  · exact fun ch member => by simp [isletter, alnums ch member]

theorem isalnum_hexDigit {half : Nat} (small : half < 16) : isalnum (hexDigit half) = true := by
  have all : ∀ half < 16, isalnum (hexDigit half) = true := by decide
  exact all half small

theorem isalnum_hex (bytes : List UInt8) : ∀ ch ∈ hex bytes, isalnum ch = true := by
  intro ch member
  obtain ⟨byte, _, digit⟩ := List.mem_flatMap.mp member
  have bound := byte.toNat_lt
  rcases List.mem_cons.mp digit with rfl | digit
  · exact isalnum_hexDigit (by omega)
  · obtain rfl := List.mem_singleton.mp digit
    exact isalnum_hexDigit (by omega)

theorem hex_ne_nil {bytes : List UInt8} (nonempty : bytes ≠ []) : hex bytes ≠ [] := by
  cases bytes with
  | nil => exact absurd rfl nonempty
  | cons byte bytes => simp [hex]

theorem isName_hex {bytes : List UInt8} (nonempty : bytes ≠ []) : IsName (hex bytes) := by
  apply isName_of (hex_ne_nil nonempty)
  · exact fun ch member => isalnum_hex bytes ch (List.mem_of_mem_head? member)
  · exact fun ch member => by simp [isletter, isalnum_hex bytes ch member]

theorem derives_marshal {name : String} (letters : ∀ ch ∈ ascii name, isletter ch = true)
    {children : List ClassTree} {arguments : List UInt8}
    (inside : DerivesArguments children arguments) :
    Derives (.node (marshal name) children) (applied (marshal name) arguments) :=
  .applied (isName_marshal letters) inside

namespace MarshalType

mutual

theorem derives : ∀ type : MarshalType, type.Legible → Derives type.tree type.text
  | .scalar type, _ => by
      rw [tree, text]
      exact .bare type.isName
  | .custom className, legible => by
      rw [Legible] at legible
      rw [tree, text]
      exact .bare (className.isName legible.1 legible.2)
  | .list valueType, legible => by
      rw [Legible] at legible
      rw [tree, text]
      exact derives_marshal (by decide +kernel) (.last (derives valueType legible))
  | .map keyType valueType, legible => by
      rw [Legible] at legible
      rw [tree, text]
      exact derives_marshal (by decide +kernel) (.more (derives keyType legible.1) (.inl rfl)
        (.last (derives valueType legible.2)))
  | .set valueType, legible => by
      rw [Legible] at legible
      rw [tree, text]
      exact derives_marshal (by decide +kernel) (.last (derives valueType legible))
  | .tuple types, legible => by
      rw [Legible] at legible
      rw [tree, text]
      exact derives_marshal (by decide +kernel) (derivesAll types legible.1 legible.2)
  | .userType keyspace typeName fields, legible => by
      rw [Legible] at legible
      rw [tree, text]
      exact derives_marshal (by decide +kernel) (.more (.bare (keyspace.isName legible.1))
        (.inl rfl) (derivesFields fields legible.2.2 (.bare (isName_hex legible.2.1))))
  | .frozen type, legible => by
      rw [Legible] at legible
      rw [tree, text]
      exact derives_marshal (by decide +kernel) (.last (derives type legible))
  | .reversed type, legible => by
      rw [Legible] at legible
      rw [tree, text]
      exact derives_marshal (by decide +kernel) (.last (derives type legible))

theorem derivesAll : ∀ types : List MarshalType, types ≠ [] → AllLegible types →
    DerivesArguments (trees types) (texts types)
  | [], nonempty, _ => absurd rfl nonempty
  | [type], _, legible => by
      rw [AllLegible] at legible
      rw [trees, trees, texts, if_pos List.isEmpty_nil, List.append_nil]
      exact .last (derives type legible.1)
  | type :: next :: types, _, legible => by
      rw [AllLegible] at legible
      rw [trees, texts, if_neg (by simp)]
      exact .more (derives type legible.1) (.inl rfl)
        (derivesAll (next :: types) (by simp) legible.2)

theorem derivesFields : ∀ fields : List (List UInt8 × MarshalType), FieldsLegible fields →
    ∀ {before : ClassTree} {text : List UInt8}, Derives before text →
      DerivesArguments (before :: fieldTrees fields) (text ++ fieldTexts fields)
  | [], _, _, _, first => by
      rw [fieldTrees, fieldTexts, List.append_nil]
      exact .last first
  | (name, type) :: fields, legible, _, _, first => by
      rw [FieldsLegible] at legible
      rw [fieldTrees, fieldTexts]
      exact .more first (.inl rfl) (.more (.bare (isName_hex legible.1)) (.inr ⟨rfl, rfl⟩)
        (derivesFields fields legible.2.2 (derives type legible.2.1)))

end

end MarshalType

end PhpDriver
