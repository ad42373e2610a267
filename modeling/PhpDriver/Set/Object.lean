import PhpDriver.Util.Hash
import PhpDriver.Util.Validate

namespace PhpDriver

open Data

/-! The `Set` objects of `Set.c`. `none` stands for undefined behaviour, which the
hashing of a value brings in. The iterator is the address of its next element. -/

structure PhpSet where
  valueType : CassType
  entries : UtHash Zval Unit := {}
  dirty : Bool := true
  iterTemp : Option Nat := none

section

variable (handlers : ValueHandlers)

def setAddWith (set : PhpSet) (object : Zval) : Option (PhpSet × Answer) :=
  if object.isNull then
    some (set,
      { result := false,
        thrown := some (.invalid "Invalid value: null is not supported inside sets") })
  else
    match validateObject object set.valueType with
    | .accepted => do
        let entry ← set.entries.find handlers.hash handlers.compare object
        match entry with
        | none =>
            let entries ← set.entries.add handlers.hash object ()
            some ({ set with dirty := true, entries }, { result := true })
        | some _ => some (set, { result := true })
    | refused => some (set, refused.refusal)

def setDelWith (set : PhpSet) (object : Zval) : Option (PhpSet × Answer) :=
  match validateObject object set.valueType with
  | .accepted => do
      let entry ← set.entries.find handlers.hash handlers.compare object
      match entry with
      | some entry =>
          some ({ set with
            dirty := true
            iterTemp :=
              if set.iterTemp = some entry.address then
                (set.entries.next entry).map UtHandle.address
              else set.iterTemp
            entries := set.entries.delete entry }, { result := true })
      | none => some (set, { result := false })
  | refused => some (set, refused.refusal)

def setHasWith (set : PhpSet) (object : Zval) : Option Answer :=
  match validateObject object set.valueType with
  | .accepted => do
      let entry ← set.entries.find handlers.hash handlers.compare object
      some { result := entry.isSome }
  | refused => some refused.refusal

end

variable (zendHash : List UInt8 → BitVec 32)

def setAdd (set : PhpSet) (object : Zval) : Option (PhpSet × Answer) :=
  setAddWith (installedHandlers zendHash) set object

def setDel (set : PhpSet) (object : Zval) : Option (PhpSet × Answer) :=
  setDelWith (installedHandlers zendHash) set object

def setHas (set : PhpSet) (object : Zval) : Option Answer :=
  setHasWith (installedHandlers zendHash) set object

namespace PhpSet

def values (set : PhpSet) : List Zval :=
  set.entries.elements.map (·.key)

def toZval (set : PhpSet) : Zval :=
  .set set.valueType set.values

def count (set : PhpSet) : BitVec 32 :=
  set.entries.count

end PhpSet

inductive SetAction where
  | add (object : Zval)
  | del (object : Zval)
  | has (object : Zval)

def SetAction.object : SetAction → Zval
  | .add object => object
  | .del object => object
  | .has object => object

def setStep (set : PhpSet) : SetAction → Option PhpSet
  | .add object => (setAdd zendHash set object).map Prod.fst
  | .del object => (setDel zendHash set object).map Prod.fst
  | .has object => (setHas zendHash set object).map fun _ => set

end PhpDriver
