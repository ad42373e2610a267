import Mathlib.Data.List.Nodup
import Mathlib.Logic.Function.Basic
import PhpDriver.Data.Run

namespace PhpDriver

open Data

/-! The generators of `util/uuid_gen.c` in processes that fork. A generator is told by the call
of `cass_uuid_gen_new` that made it; a copy of it goes on from where it was copied. -/

structure CassUuidGen where
  serial : Nat
  given : Nat := 0
deriving DecidableEq

structure UuidGlobals where
  uuidGen : Option CassUuidGen := none
  uuidGenPid : Nat := 0

inductive UuidRequest where
  | random
  | time
  | fromTime (timestamp : BitVec 64)
deriving DecidableEq

def getUuidGen (globals : UuidGlobals) (getpid : Nat) (cassUuidGenNew : Option CassUuidGen) :
    UuidGlobals :=
  if globals.uuidGenPid ≠ getpid then { uuidGen := cassUuidGenNew, uuidGenPid := getpid }
  else globals

/-- `php_driver_uuid_generate_random` and its like: the generator that is asked, if any. -/
def uuidGenerate (globals : UuidGlobals) (getpid : Nat) (cassUuidGenNew : Option CassUuidGen) :
    UuidGlobals × Option CassUuidGen :=
  let globals := getUuidGen globals getpid cassUuidGenNew
  match globals.uuidGen with
  -- `out` stays as it was
  | none => (globals, none)
  | some uuidGen =>
      ({ globals with uuidGen := some { uuidGen with given := uuidGen.given + 1 } }, some uuidGen)

structure UuidAnswer where
  pid : Nat
  request : UuidRequest
  uuidGen : CassUuidGen
deriving DecidableEq

structure UuidProcesses where
  globals : Nat → Option UuidGlobals := fun _ => none
  serials : Nat := 0
  answers : List UuidAnswer := []

inductive UuidEvent where
  | start (pid : Nat)
  | fork (parent child : Nat)
  | generate (pid : Nat) (request : UuidRequest) (available : Bool)
  | exit (pid : Nat)

namespace UuidProcesses

def put (processes : UuidProcesses) (pid : Nat) (globals : Option UuidGlobals) :
    UuidProcesses :=
  { processes with globals := Function.update processes.globals pid globals }

/-- A process that is there, with a number that no other has. -/
def spawn (processes : UuidProcesses) (pid : Nat) (globals : UuidGlobals) :
    Option UuidProcesses :=
  if pid = 0 ∨ (processes.globals pid).isSome then none
  else some (processes.put pid (some globals))

/-- `cass_uuid_gen_new`, which is tried only where the process has another number. -/
def generate (processes : UuidProcesses) (pid : Nat) (request : UuidRequest)
    (available : Bool) : Option UuidProcesses :=
  (processes.globals pid).map fun globals =>
    let cassUuidGenNew := if available then some { serial := processes.serials } else none
    let (after, asked) := uuidGenerate globals pid cassUuidGenNew
    { processes.put pid (some after) with
      serials := processes.serials + 1
      answers := processes.answers ++ asked.toList.map fun uuidGen => { pid, request, uuidGen } }

def step (processes : UuidProcesses) : UuidEvent → Option UuidProcesses
  | .start pid => processes.spawn pid {}
  | .fork parent child => (processes.globals parent).bind (processes.spawn child)
  | .generate pid request available => processes.generate pid request available
  | .exit pid => (processes.globals pid).map fun _ => processes.put pid none

/-- A child does not get the number that its parent remembers. That is not the one of the
parent: it may be of a process that the parent comes from, and that has ended. -/
def Renumbers (processes : UuidProcesses) : UuidEvent → Prop
  | .fork parent child =>
      ∀ globals, processes.globals parent = some globals → globals.uuidGenPid ≠ child
  | .start _ => True
  | .generate _ _ _ => True
  | .exit _ => True

def Has (processes : UuidProcesses) (pid : Nat) (uuidGen : CassUuidGen) : Prop :=
  ∃ globals, processes.globals pid = some globals ∧ globals.uuidGen = some uuidGen

def Asks (processes : UuidProcesses) (pid : Nat) (uuidGen : CassUuidGen) : Prop :=
  ∃ globals, processes.globals pid = some globals ∧ globals.uuidGen = some uuidGen ∧
    globals.uuidGenPid = pid

structure Separate (processes : UuidProcesses) : Prop where
  held : ∀ pid uuidGen, processes.Has pid uuidGen → uuidGen.serial < processes.serials
  answered : ∀ answer ∈ processes.answers, answer.uuidGen.serial < processes.serials
  /-- Two processes do not ask the same generator. -/
  own : ∀ first second uuidGen other, processes.Asks first uuidGen → processes.Asks second other →
    uuidGen.serial = other.serial → first = second
  /-- The generator a process asks has answered that process only, and goes on from there. -/
  ahead : ∀ pid uuidGen, processes.Asks pid uuidGen → ∀ answer ∈ processes.answers,
    answer.uuidGen.serial = uuidGen.serial → answer.pid = pid ∧
      answer.uuidGen.given < uuidGen.given
  /-- So have all the others. -/
  single : ∀ first ∈ processes.answers, ∀ second ∈ processes.answers,
    first.uuidGen.serial = second.uuidGen.serial → first.pid = second.pid
  distinct : (processes.answers.map UuidAnswer.uuidGen).Nodup

variable {processes after : UuidProcesses}

theorem globals_put (processes : UuidProcesses) (pid : Nat) (globals : Option UuidGlobals)
    (other : Nat) : (processes.put pid globals).globals other =
      if other = pid then globals else processes.globals other :=
  Function.update_apply ..

theorem Asks.has {pid : Nat} {uuidGen : CassUuidGen} (asks : processes.Asks pid uuidGen) :
    processes.Has pid uuidGen := by
  obtain ⟨globals, running, holds, _⟩ := asks
  exact ⟨globals, running, holds⟩

theorem separate_start : Separate {} where
  held := by rintro _ _ ⟨_, running, _⟩; cases running
  answered := by simp
  own := by rintro _ _ _ _ ⟨_, running, _⟩; cases running
  ahead := by simp
  single := by simp
  distinct := List.nodup_nil

/-- What is asked afterwards was asked before, and nothing new is held. -/
theorem Separate.shrink (separate : processes.Separate)
    (serials : processes.serials ≤ after.serials) (answers : after.answers = processes.answers)
    (holds : ∀ pid uuidGen, after.Has pid uuidGen → ∃ other, processes.Has other uuidGen)
    (asks : ∀ pid uuidGen, after.Asks pid uuidGen → processes.Asks pid uuidGen) :
    after.Separate where
  held := by
    intro pid uuidGen has
    obtain ⟨other, had⟩ := holds pid uuidGen has
    exact Nat.lt_of_lt_of_le (separate.held other uuidGen had) serials
  answered := by
    rw [answers]
    exact fun answer member => Nat.lt_of_lt_of_le (separate.answered answer member) serials
  own := fun first second uuidGen other askFirst askSecond =>
    separate.own first second uuidGen other (asks _ _ askFirst) (asks _ _ askSecond)
  ahead := by
    intro pid uuidGen askPid
    rw [answers]
    exact separate.ahead pid uuidGen (asks _ _ askPid)
  single := by rw [answers]; exact separate.single
  distinct := by rw [answers]; exact separate.distinct

/-- A new process does not ask the generator it was forked with. -/
theorem Separate.spawn (separate : processes.Separate) {pid : Nat} {globals : UuidGlobals}
    (copied : ∀ uuidGen, globals.uuidGen = some uuidGen →
      ∃ other, processes.Has other uuidGen)
    (forgotten : globals.uuidGenPid ≠ pid) (spawned : processes.spawn pid globals = some after) :
    after.Separate := by
  rw [UuidProcesses.spawn] at spawned
  split at spawned
  · cases spawned
  obtain rfl := Option.some.inj spawned
  refine separate.shrink (Nat.le_refl _) rfl ?_ ?_
  · rintro other uuidGen ⟨found, running, has⟩
    rw [globals_put] at running
    split at running
    · obtain rfl := Option.some.inj running
      exact copied uuidGen has
    · exact ⟨other, found, running, has⟩
  · rintro other uuidGen ⟨found, running, has, remembers⟩
    rw [globals_put] at running
    split at running
    · rename_i same
      obtain rfl := Option.some.inj running
      exact absurd (remembers.trans same) forgotten
    · exact ⟨found, running, has, remembers⟩

theorem Separate.exit (separate : processes.Separate) (pid : Nat) :
    (processes.put pid none).Separate := by
  refine separate.shrink (Nat.le_refl _) rfl ?_ ?_
  · rintro other uuidGen ⟨found, running, has⟩
    rw [globals_put] at running
    split at running
    · cases running
    · exact ⟨other, found, running, has⟩
  · rintro other uuidGen ⟨found, running, has, remembers⟩
    rw [globals_put] at running
    split at running
    · cases running
    · exact ⟨found, running, has, remembers⟩

/-- What a process may ask: nobody else asks it, and all it gave it gave to this process. -/
structure Grants (processes : UuidProcesses) (pid : Nat) (uuidGen : CassUuidGen) : Prop where
  below : uuidGen.serial < processes.serials + 1
  alone : ∀ second other, processes.Asks second other → uuidGen.serial = other.serial →
    pid = second
  past : ∀ answer ∈ processes.answers, answer.uuidGen.serial = uuidGen.serial →
    answer.pid = pid ∧ answer.uuidGen.given < uuidGen.given

theorem Separate.grants_asked (separate : processes.Separate) {pid : Nat}
    {uuidGen : CassUuidGen} (asks : processes.Asks pid uuidGen) :
    processes.Grants pid uuidGen where
  below := Nat.lt_succ_of_lt (separate.held pid uuidGen asks.has)
  alone := fun second other asksOther => separate.own pid second uuidGen other asks asksOther
  past := separate.ahead pid uuidGen asks

theorem Separate.grants_new (separate : processes.Separate) (pid : Nat) :
    processes.Grants pid { serial := processes.serials } where
  below := Nat.lt_succ_self _
  alone := fun second other asks same =>
    absurd same (Nat.ne_of_gt (separate.held second other asks.has))
  past := fun answer member same => absurd same (Nat.ne_of_lt (separate.answered answer member))

def answer (processes : UuidProcesses) (pid : Nat) (request : UuidRequest)
    (uuidGen : CassUuidGen) : UuidProcesses :=
  { processes.put pid (some
      { uuidGen := some { uuidGen with given := uuidGen.given + 1 }, uuidGenPid := pid }) with
    serials := processes.serials + 1
    answers := processes.answers ++ [{ pid, request, uuidGen }] }

theorem Has.of_answer {pid : Nat} {request : UuidRequest} {uuidGen : CassUuidGen} {other : Nat}
    {held : CassUuidGen} (has : (processes.answer pid request uuidGen).Has other held) :
    held.serial = uuidGen.serial ∨ processes.Has other held := by
  obtain ⟨globals, running, holds⟩ := has
  rw [answer, globals_put] at running
  split at running
  · obtain rfl := Option.some.inj running
    obtain rfl := Option.some.inj holds
    exact Or.inl rfl
  · exact Or.inr ⟨globals, running, holds⟩

theorem Asks.of_answer {pid : Nat} {request : UuidRequest} {uuidGen : CassUuidGen} {other : Nat}
    {asked : CassUuidGen} (asks : (processes.answer pid request uuidGen).Asks other asked) :
    (other = pid ∧ asked = { uuidGen with given := uuidGen.given + 1 }) ∨
      (other ≠ pid ∧ processes.Asks other asked) := by
  obtain ⟨globals, running, holds, remembers⟩ := asks
  rw [answer, globals_put] at running
  split at running
  · rename_i same
    obtain rfl := Option.some.inj running
    exact Or.inl ⟨same, (Option.some.inj holds).symm⟩
  · rename_i differs
    exact Or.inr ⟨differs, globals, running, holds, remembers⟩

theorem Separate.answer (separate : processes.Separate) {pid : Nat} {uuidGen : CassUuidGen}
    (grants : processes.Grants pid uuidGen) (request : UuidRequest) :
    (processes.answer pid request uuidGen).Separate where
  held := by
    intro other held has
    rcases has.of_answer with same | had
    · rw [same]
      exact grants.below
    · exact Nat.lt_succ_of_lt (separate.held other held had)
  answered := by
    intro answer member
    rcases List.mem_append.mp member with old | new
    · exact Nat.lt_succ_of_lt (separate.answered answer old)
    · obtain rfl := List.mem_singleton.mp new
      exact grants.below
  own := by
    intro first second asked other asksFirst asksSecond same
    rcases asksFirst.of_answer with ⟨rfl, rfl⟩ | ⟨_, hadFirst⟩ <;>
      rcases asksSecond.of_answer with ⟨rfl, rfl⟩ | ⟨_, hadSecond⟩
    · rfl
    · exact grants.alone second other hadSecond same
    · exact (grants.alone first asked hadFirst same.symm).symm
    · exact separate.own first second asked other hadFirst hadSecond same
  ahead := by
    intro other asked asks answer member same
    rcases asks.of_answer with ⟨rfl, rfl⟩ | ⟨differs, had⟩ <;>
      rcases List.mem_append.mp member with old | new
    · obtain ⟨samePid, less⟩ := grants.past answer old same
      exact ⟨samePid, Nat.lt_succ_of_lt less⟩
    · obtain rfl := List.mem_singleton.mp new
      exact ⟨rfl, Nat.lt_succ_self _⟩
    · exact separate.ahead other asked had answer old same
    · obtain rfl := List.mem_singleton.mp new
      exact absurd (grants.alone other asked had same).symm differs
  single := by
    intro first firstMember second secondMember same
    rcases List.mem_append.mp firstMember with oldFirst | newFirst <;>
      rcases List.mem_append.mp secondMember with oldSecond | newSecond
    · exact separate.single first oldFirst second oldSecond same
    · obtain rfl := List.mem_singleton.mp newSecond
      exact (grants.past first oldFirst same).1
    · obtain rfl := List.mem_singleton.mp newFirst
      exact (grants.past second oldSecond same.symm).1.symm
    · obtain rfl := List.mem_singleton.mp newFirst
      obtain rfl := List.mem_singleton.mp newSecond
      rfl
  distinct := by
    have unseen : uuidGen ∉ processes.answers.map UuidAnswer.uuidGen := by
      intro member
      obtain ⟨old, oldMember, same⟩ := List.mem_map.mp member
      have less := (grants.past old oldMember (by rw [same])).2
      rw [same] at less
      exact Nat.lt_irrefl _ less
    rw [UuidProcesses.answer, List.map_append]
    exact List.nodup_append_comm.mp (List.nodup_cons.mpr ⟨unseen, separate.distinct⟩)

def deny (processes : UuidProcesses) (pid : Nat) : UuidProcesses :=
  { processes.put pid (some { uuidGenPid := pid }) with serials := processes.serials + 1 }

theorem Separate.deny (separate : processes.Separate) (pid : Nat) :
    (processes.deny pid).Separate := by
  refine separate.shrink (Nat.le_succ _) rfl ?_ ?_
  · rintro other uuidGen ⟨found, running, has⟩
    rw [UuidProcesses.deny, globals_put] at running
    split at running
    · obtain rfl := Option.some.inj running
      cases has
    · exact ⟨other, found, running, has⟩
  · rintro other uuidGen ⟨found, running, has, remembers⟩
    rw [UuidProcesses.deny, globals_put] at running
    split at running
    · obtain rfl := Option.some.inj running
      cases has
    · exact ⟨found, running, has, remembers⟩

theorem generate_cases (separate : processes.Separate) {pid : Nat} {request : UuidRequest}
    {available : Bool} (generated : processes.generate pid request available = some after) :
    (∃ uuidGen, processes.Grants pid uuidGen ∧ after = processes.answer pid request uuidGen) ∨
      after = processes.deny pid := by
  obtain ⟨globals, running, rfl⟩ := Option.map_eq_some_iff.mp generated
  obtain ⟨held, remembered⟩ := globals
  by_cases same : remembered = pid
  · subst same
    cases held with
    | none =>
        right
        simp [uuidGenerate, getUuidGen, UuidProcesses.deny, put]
    | some uuidGen =>
        refine Or.inl ⟨uuidGen, separate.grants_asked ⟨_, running, rfl, rfl⟩, ?_⟩
        simp [uuidGenerate, getUuidGen, UuidProcesses.answer]
  · cases available with
    | false =>
        right
        simp [uuidGenerate, getUuidGen, UuidProcesses.deny, put, same]
    | true =>
        refine Or.inl ⟨_, separate.grants_new pid, ?_⟩
        simp [uuidGenerate, getUuidGen, UuidProcesses.answer, same]

theorem Separate.step (separate : processes.Separate) {event : UuidEvent}
    (renumbers : processes.Renumbers event) (taken : processes.step event = some after) :
    after.Separate := by
  cases event with
  | start pid =>
      rw [UuidProcesses.step, UuidProcesses.spawn] at taken
      split at taken
      · cases taken
      rename_i free
      refine separate.spawn (by simp) ?_ (if_neg free |>.trans taken)
      exact fun zero => free (Or.inl zero.symm)
  | fork parent child =>
      obtain ⟨globals, running, spawned⟩ := Option.bind_eq_some_iff.mp taken
      exact separate.spawn (fun uuidGen has => ⟨parent, globals, running, has⟩)
        (renumbers globals running) spawned
  | generate pid request available =>
      rcases generate_cases separate taken with ⟨uuidGen, grants, rfl⟩ | rfl
      · exact separate.answer grants request
      · exact separate.deny pid
  | exit pid =>
      obtain ⟨_, _, rfl⟩ := Option.map_eq_some_iff.mp taken
      exact separate.exit pid

end UuidProcesses

/-- The number of the first process is given to a child of the second, which never asked. -/
theorem uuid_is_repeated_under_returned_number :
    ∃ processes : UuidProcesses,
      [UuidEvent.start 1, .generate 1 .time true, .fork 1 2, .generate 1 .time true, .exit 1,
        .fork 2 1, .generate 1 .time true].foldlM UuidProcesses.step {} = some processes ∧
      ¬ (processes.answers.map UuidAnswer.uuidGen).Nodup :=
  ⟨_, rfl, by decide⟩

end PhpDriver
