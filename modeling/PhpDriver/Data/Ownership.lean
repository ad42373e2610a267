import Mathlib.Data.List.Basic
import Mathlib.Algebra.Order.Group.Int

namespace PhpDriver.Data

/-! Handles of a library, each of which has to be released once. A handle is kept by a field of
an object, or it has a counter of references, and the references are kept by fields. -/

variable {Handle Field : Type}

inductive Ownership (Handle Field : Type) where
  | acquire (handle : Handle)
  | release (handle : Handle)
  | keep (handle : Handle) (field : Field)
  /-- A counter that starts at one. -/
  | newRef (handle : Handle)
  | addRef (handle : Handle)
  | delRef (handle : Handle)
  | hold (handle : Handle) (field : Field)
  /-- The field is gone or no longer refers to the handle. -/
  | forget (handle : Handle) (field : Field)
  | letGo (handle : Handle) (field : Field)
deriving DecidableEq

/-- How often a handle was acquired and released, how many fields keep it, what its counter
says, and how many fields hold a reference to it. Those that are older than a trace count from
what they were. -/
@[ext] structure Balance where
  acquired : Int := 0
  released : Int := 0
  kept : Int := 0
  count : Int := 0
  held : Int := 0
deriving DecidableEq

instance : Add Balance where
  add first second :=
    { acquired := first.acquired + second.acquired
      released := first.released + second.released
      kept := first.kept + second.kept
      count := first.count + second.count
      held := first.held + second.held }

namespace Ownership

variable [DecidableEq Handle]

def handle : Ownership Handle Field → Handle
  | .acquire handle | .release handle | .keep handle _ | .newRef handle | .addRef handle
  | .delRef handle | .hold handle _ | .forget handle _ | .letGo handle _ => handle

def effect : Ownership Handle Field → Balance
  | .acquire _ => { acquired := 1 }
  | .release _ => { released := 1 }
  | .keep _ _ => { kept := 1 }
  | .newRef _ | .addRef _ => { count := 1 }
  | .delRef _ => { count := -1 }
  | .hold _ _ => { held := 1 }
  | .forget _ _ => { kept := -1 }
  | .letGo _ _ => { held := -1 }

def balance (trace : List (Ownership Handle Field)) (handle : Handle) : Balance :=
  trace.foldr (fun event balance =>
    if event.handle = handle then event.effect + balance else balance) {}

def field : Ownership Handle Field → Option Field
  | .keep _ field | .hold _ field => some field
  | _ => none

def fields (trace : List (Ownership Handle Field)) (handle : Handle) : List Field :=
  trace.filterMap fun event => if event.handle = handle then event.field else none

end Ownership

/-- What a counter gains is gained by fields. A handle that was acquired once is released once,
or one field keeps it, or its counter stands for it. -/
def Balance.Even (balance : Balance) : Prop :=
  balance.count = balance.held ∧
    (balance.acquired = 0 ∧ balance.released + balance.kept = 0 ∨
      balance.acquired = 1 ∧
        (balance.released = 1 ∧ balance.kept = 0 ∧ balance.count = 0 ∨
          balance.released = 0 ∧ balance.kept = 1 ∧ balance.count = 0 ∨
          balance.released = 0 ∧ balance.kept = 0 ∧ 0 < balance.count))

instance (balance : Balance) : Decidable balance.Even :=
  inferInstanceAs (Decidable (_ ∧ _))

/-- The fields that some handles end up in are freed with their objects. -/
structure Ownership.Balanced [DecidableEq Handle] (isOwn : Handle → Prop)
    (isFreed : Field → Prop) (trace : List (Ownership Handle Field)) : Prop where
  even : ∀ handle, isOwn handle → (balance trace handle).Even
  owned : ∀ handle, isOwn handle → ∀ field ∈ fields trace handle, isFreed field

namespace Balance

theorem add_def (first second : Balance) : first + second =
    { acquired := first.acquired + second.acquired
      released := first.released + second.released
      kept := first.kept + second.kept
      count := first.count + second.count
      held := first.held + second.held } := rfl

theorem zero_add (balance : Balance) : {} + balance = balance := by
  simp [add_def]

theorem add_zero (balance : Balance) : balance + {} = balance := by
  simp [add_def]

theorem add_assoc (first second third : Balance) :
    first + second + third = first + (second + third) := by
  simp [add_def, Int.add_assoc]

end Balance

namespace Ownership

variable [DecidableEq Handle]

@[simp] theorem balance_nil (handle : Handle) :
    balance ([] : List (Ownership Handle Field)) handle = {} := rfl

@[simp] theorem balance_cons (event : Ownership Handle Field)
    (trace : List (Ownership Handle Field)) (handle : Handle) :
    balance (event :: trace) handle =
      if event.handle = handle then event.effect + balance trace handle
      else balance trace handle := rfl

theorem balance_append (trace more : List (Ownership Handle Field)) (handle : Handle) :
    balance (trace ++ more) handle = balance trace handle + balance more handle := by
  induction trace with
  | nil => exact (Balance.zero_add _).symm
  | cons event trace ih =>
      rw [List.cons_append, balance_cons, balance_cons, ih]
      split
      · exact (Balance.add_assoc _ _ _).symm
      · rfl

@[simp] theorem fields_append (trace more : List (Ownership Handle Field)) (handle : Handle) :
    fields (trace ++ more) handle = fields trace handle ++ fields more handle :=
  List.filterMap_append

theorem not_balanced_of_field {isOwn : Handle → Prop} {isFreed : Field → Prop}
    {trace : List (Ownership Handle Field)} {handle : Handle} {field : Field}
    (own : isOwn handle) (kept : field ∈ fields trace handle) (unfreed : ¬isFreed field) :
    ¬Balanced isOwn isFreed trace :=
  fun balanced => unfreed (balanced.owned handle own field kept)

end Ownership

end PhpDriver.Data
