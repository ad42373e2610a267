import PhpDriver.Util.Hash
import PhpDriver.Util.Validate

namespace PhpDriver

open Data

/-! The `Map` objects of `Map.c`. `none` stands for undefined behaviour, which the
hashing of a key brings in. The iterator is the address of its next element. -/

structure PhpMap where
  keyType : CassType
  valueType : CassType
  entries : UtHash Zval Zval := {}
  dirty : Bool := true
  iterTemp : Option Nat := none

section

variable (handlers : ValueHandlers)

def mapSetWith (map : PhpMap) (key value : Zval) : Option (PhpMap × Answer) :=
  if key.isNull then
    some (map,
      { result := false,
        thrown := some (.invalid "Invalid key: null is not supported inside maps") })
  else if value.isNull then
    some (map,
      { result := false,
        thrown := some (.invalid "Invalid value: null is not supported inside maps") })
  else
    match validateObject key map.keyType with
    | .accepted =>
        match validateObject value map.valueType with
        | .accepted => do
            let entry ← map.entries.find handlers.hash handlers.compare key
            match entry with
            | none =>
                let entries ← map.entries.add handlers.hash key value
                some ({ map with dirty := true, entries }, { result := true })
            | some entry =>
                some ({ map with dirty := true, entries := map.entries.setValue entry value },
                  { result := true })
        | refused => some (map, refused.refusal)
    | refused => some (map, refused.refusal)

def mapGetWith (map : PhpMap) (key : Zval) : Option (Answer × Option Zval) :=
  match validateObject key map.keyType with
  | .accepted => do
      let entry ← map.entries.find handlers.hash handlers.compare key
      match entry with
      | some entry => some ({ result := true }, map.entries.valueAt entry)
      | none => some ({ result := false }, none)
  | refused => some (refused.refusal, none)

def mapDelWith (map : PhpMap) (key : Zval) : Option (PhpMap × Answer) :=
  match validateObject key map.keyType with
  | .accepted => do
      let entry ← map.entries.find handlers.hash handlers.compare key
      match entry with
      | some entry =>
          some ({ map with
            dirty := true
            iterTemp :=
              if map.iterTemp = some entry.address then
                (map.entries.next entry).map UtHandle.address
              else map.iterTemp
            entries := map.entries.delete entry }, { result := true })
      | none => some (map, { result := false })
  | refused => some (map, refused.refusal)

def mapHasWith (map : PhpMap) (key : Zval) : Option Answer :=
  match validateObject key map.keyType with
  | .accepted => do
      let entry ← map.entries.find handlers.hash handlers.compare key
      some { result := entry.isSome }
  | refused => some refused.refusal

end

variable (zendHash : List UInt8 → BitVec 32)

def mapSet (map : PhpMap) (key value : Zval) : Option (PhpMap × Answer) :=
  mapSetWith (installedHandlers zendHash) map key value

def mapGet (map : PhpMap) (key : Zval) : Option (Answer × Option Zval) :=
  mapGetWith (installedHandlers zendHash) map key

def mapDel (map : PhpMap) (key : Zval) : Option (PhpMap × Answer) :=
  mapDelWith (installedHandlers zendHash) map key

def mapHas (map : PhpMap) (key : Zval) : Option Answer :=
  mapHasWith (installedHandlers zendHash) map key

namespace PhpMap

def keys (map : PhpMap) : List Zval :=
  map.entries.elements.map (·.key)

def values (map : PhpMap) : List Zval :=
  map.entries.elements.map (·.value)

def pairsInOrder (map : PhpMap) : List (Zval × Zval) :=
  map.entries.elements.map fun element => (element.key, element.value)

def toZval (map : PhpMap) : Zval :=
  .map map.keyType map.valueType map.pairsInOrder

def count (map : PhpMap) : BitVec 32 :=
  map.entries.count

end PhpMap

inductive MapAction where
  | set (key value : Zval)
  | del (key : Zval)
  | get (key : Zval)
  | has (key : Zval)

def MapAction.objects : MapAction → List Zval
  | .set key value => [key, value]
  | .del key => [key]
  | .get key => [key]
  | .has key => [key]

def mapStep (map : PhpMap) : MapAction → Option PhpMap
  | .set key value => (mapSet zendHash map key value).map Prod.fst
  | .del key => (mapDel zendHash map key).map Prod.fst
  | .get key => (mapGet zendHash map key).map fun _ => map
  | .has key => (mapHas zendHash map key).map fun _ => map

end PhpDriver
