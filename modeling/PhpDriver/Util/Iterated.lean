import PhpDriver.Collection.Object
import PhpDriver.Tuple.Object
import PhpDriver.UserTypeValue.Object

namespace PhpDriver

open Data

/-! The containers kept in Zend's tables, with the positions of their iterators. A
collection moves the pointer of its own table, from which elements may be removed; it is
given by the index from which the next element is looked for. That takes for granted that
Zend does not compact the table, or make a hash of it, while the pointer is past its end. -/

structure IteratedCollection extends PhpCollection where
  position : Nat := 0

namespace IteratedCollection

def currentEntry (collection : IteratedCollection) : Option (Nat × Zval) :=
  collection.values.find? fun entry => collection.position ≤ entry.1

def current (collection : IteratedCollection) : Zval :=
  (collection.currentEntry.map Prod.snd).getD .null

def key (collection : IteratedCollection) : Option Nat :=
  collection.currentEntry.map Prod.fst

def next (collection : IteratedCollection) : IteratedCollection :=
  match collection.currentEntry with
  | some (index, _) => { collection with position := index + 1 }
  | none => collection

def valid (collection : IteratedCollection) : Bool :=
  collection.currentEntry.isSome

def rewind (collection : IteratedCollection) : IteratedCollection :=
  { collection with position := 0 }

def count (collection : IteratedCollection) : Nat :=
  collection.values.length

end IteratedCollection

/-! Tuples and user type values go through the table of their type, which only grows. -/

def htInvalidIdx : Nat := 2 ^ 32 - 1

def moveForwardEx (numElements pos : Nat) : Nat :=
  if pos < numElements then pos + 1 else pos

structure IteratedTuple extends PhpTuple where
  pos : Nat := htInvalidIdx

namespace IteratedTuple

def current (tuple : IteratedTuple) : Zval :=
  if tuple.pos < tuple.types.length then (tuple.values.get tuple.pos).getD .null else .null

def key (tuple : IteratedTuple) : Option Nat :=
  if tuple.pos < tuple.types.length then some tuple.pos else none

def next (tuple : IteratedTuple) : IteratedTuple :=
  { tuple with pos := moveForwardEx tuple.types.length tuple.pos }

def valid (tuple : IteratedTuple) : Bool :=
  tuple.pos < tuple.types.length

def rewind (tuple : IteratedTuple) : IteratedTuple :=
  { tuple with pos := 0 }

def count (tuple : IteratedTuple) : Nat :=
  tuple.types.length

end IteratedTuple

structure IteratedUserTypeValue extends PhpUserTypeValue where
  pos : Nat := htInvalidIdx

namespace IteratedUserTypeValue

def key (userTypeValue : IteratedUserTypeValue) : Option (List UInt8) :=
  userTypeValue.types.keys[userTypeValue.pos]?

def current (userTypeValue : IteratedUserTypeValue) : Zval :=
  (userTypeValue.key.bind userTypeValue.values.get).getD .null

def next (userTypeValue : IteratedUserTypeValue) : IteratedUserTypeValue :=
  { userTypeValue with pos := moveForwardEx userTypeValue.types.length userTypeValue.pos }

def valid (userTypeValue : IteratedUserTypeValue) : Bool :=
  userTypeValue.pos < userTypeValue.types.length

def rewind (userTypeValue : IteratedUserTypeValue) : IteratedUserTypeValue :=
  { userTypeValue with pos := 0 }

def count (userTypeValue : IteratedUserTypeValue) : Nat :=
  userTypeValue.types.length

end IteratedUserTypeValue

end PhpDriver
