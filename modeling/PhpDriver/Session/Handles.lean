import PhpDriver.Cluster.Persistent
import PhpDriver.Session.Execute

namespace PhpDriver

open Data
open Data.Ownership

/-! What the calls of clusters, sessions and rows do to the handles of the driver. -/

variable {Token Content Row : Type}

/-! `Rows::nextPage` and `Rows::nextPageAsync`. -/

structure PageAnswer (Token Content : Type) where
  accepted : Bool
  wait : WaitOutcome
  result : CassResult Token Content

section

variable (decode : Content → Except Exception (List Row))
variable (self : RowsObject Token Content Row)

def newRowsEvents (handle : DriverHandle) : List HandleEvent :=
  [.addRef .ownStatement, .hold .ownStatement (.newRows, .statement),
    .addRef .session, .hold .session (.newRows, .session),
    .addRef handle, .hold handle (.newRows, .result)]

def rowsCreateEvents (handle : DriverHandle) (nextResult : CassResult Token Content) :
    List HandleEvent :=
  match self.nextRows.elim (decode nextResult.content) .ok with
  | .error _ => []
  | .ok _ =>
      if nextResult.hasMorePages then newRowsEvents handle else []

/-- The future is the object of `future_next_page`. -/
def nextPageEvents (future : Option (FutureObject Token Content Row))
    (answer : PageAnswer Token Content) : List HandleEvent :=
  match self.nextResult, future, self.result with
  | some nextResult, _, _ => rowsCreateEvents decode self .cachedResult nextResult
  | none, some (.value _), _ => []
  | none, some (.rows future), _ =>
      match future.result with
      | some result =>
          [.addRef .cachedResult, .hold .cachedResult (.rows, .nextResult)] ++
            rowsCreateEvents decode self .cachedResult result
      | none =>
          match answer.wait with
          | .failed _ | .noResult => []
          | .ready =>
              [.acquire .result, .newRef .result, .hold .result (.futureRows, .result),
                .addRef .result, .hold .result (.rows, .nextResult)] ++
                rowsCreateEvents decode self .result answer.result
  | none, none, none => []
  | none, none, some _ =>
      if answer.accepted then
        match answer.wait with
        | .failed _ => [.acquire .future]
        | .noResult => [.acquire .future, .release .future]
        | .ready =>
            [.acquire .future, .acquire .result,
              .newRef .result, .hold .result (.rows, .nextResult), .release .future] ++
              rowsCreateEvents decode self .result answer.result
      else []

def nextPageAsyncEvents (answer : PageAnswer Token Content) : List HandleEvent :=
  match self.futureNextPage, self.nextResult, self.result with
  | some _, _, _ => []
  | none, some nextResult, _ => rowsCreateEvents decode self .cachedResult nextResult
  | none, none, none => []
  | none, none, some _ =>
      if answer.accepted then
        [.addRef .ownStatement, .hold .ownStatement (.futureRows, .statement),
          .addRef .session, .hold .session (.futureRows, .session),
          .acquire .future, .keep .future (.futureRows, .future)]
      else []

end

/-! `DefaultCluster::connect`. -/

def attemptEvents (persist listed : Bool) : List HandleEvent :=
  if persist ∧ listed then [.addRef .session, .hold .session (.session, .session)]
  else
    [.acquire .session, .newRef .session, .hold .session (.session, .session),
      .acquire .future] ++
      if persist then
        [.addRef .session, .hold .session (.persistentSession, .session),
          .keep .future (.persistentSession, .future)]
      else []

def persistentSessionDtor : List HandleEvent :=
  [.release .future, .forget .future (.persistentSession, .future),
    .delRef .session, .letGo .session (.persistentSession, .session)]

def connectEvents (persist listed : Bool) (outcome : Outcome) : List HandleEvent :=
  attemptEvents persist listed ++
    match outcome with
    | .unresolved => if persist then [] else [.release .future]
    | .error => if persist then persistentSessionDtor else [.release .future]
    | .success => []

inductive HandleCall (Token Content Row : Type) where
  | connect (persist listed : Bool) (outcome : Outcome)
  | execute (session : DefaultSession) (preparation : Preparation)
      (answer : DriverAnswer Token Content Row) (statement : StatementArgument)
      (options : Option OptionsArgument)
  | prepare (answer : PrepareAnswer) (cql : List UInt8) (options : Option OptionsArgument)
  | close (session : DefaultSession) (answer : Except Exception Unit) (timeout : Option Timeout)
  | nextPage (decode : Content → Except Exception (List Row))
      (self : RowsObject Token Content Row) (future : Option (FutureObject Token Content Row))
      (answer : PageAnswer Token Content)
  | nextPageAsync (decode : Content → Except Exception (List Row))
      (self : RowsObject Token Content Row) (answer : PageAnswer Token Content)

namespace HandleCall

def events : HandleCall Token Content Row → List HandleEvent
  | .connect persist listed outcome => connectEvents persist listed outcome
  | .execute session preparation answer statement options =>
      (PhpDriver.execute session preparation answer statement options).events
  | .prepare answer cql options => (PhpDriver.prepare answer cql options).events
  | .close session answer timeout => (PhpDriver.close session answer timeout).events
  | .nextPage decode self future answer => nextPageEvents decode self future answer
  | .nextPageAsync decode self answer => nextPageAsyncEvents decode self answer

end HandleCall

structure AnswersPage (answer : DriverAnswer Token Content Row) : Prop where
  ready : answer.wait = .ready
  decoded : ∃ rows, answer.decode answer.result.content = .ok rows
  more : answer.result.hasMorePages = true

/-- The arguments of a single statement are bound, and the driver accepts its settings. -/
structure Preparation.Takes (preparation : Preparation) (settings : ExecutionSettings) :
    Prop where
  accepted : preparation.settings = none
  bound : ∀ arguments, settings.arguments = some arguments → ∀ argument ∈ arguments,
    ∃ item, preparation.bind .statement argument.1 argument.2 = .bound item

def SendsStatement (session : DefaultSession) (preparation : Preparation)
    (statement : StatementArgument) (options : Option OptionsArgument) : Prop :=
  ∃ single settings,
    readArguments session statement options = .ok (.single single, settings) ∧
      preparation.Takes settings

namespace HandleCall

/-- No future is left by a new session or a failed wait, and no object takes a handle over:
there is no handler that would let go of it. -/
def LetsGo : HandleCall Token Content Row → Prop
  | .connect persist _ outcome => persist = false → outcome ≠ .success
  | .execute session preparation answer statement options =>
      SendsStatement session preparation statement options → ¬AnswersPage answer
  | .prepare _ _ _ | .close _ _ _ => True
  | .nextPage _ self future answer => self.nextResult = none →
      (∀ pending, future = some (.rows pending) → pending.result = none →
        answer.wait ≠ .ready) ∧
      (future = none → self.result.isSome → answer.accepted → answer.wait = .noResult)
  | .nextPageAsync _ self answer =>
      self.futureNextPage = none → self.nextResult = none → self.result.isSome →
        answer.accepted = false

end HandleCall

def IsFreed (field : HandleOwner × HandleField) : Prop :=
  field.2 ∈ field.1.destructor

instance (field : HandleOwner × HandleField) : Decidable (IsFreed field) :=
  inferInstanceAs (Decidable (_ ∈ _))

/-- Every handle that was acquired is released or has an owner that frees it. -/
abbrev HandlesBalanced (trace : List HandleEvent) : Prop :=
  Balanced (fun handle => handle.isOwn = true) IsFreed trace

/-- The own handles but those of the entries of a batch. -/
def namedHandles : List DriverHandle :=
  [.future, .statement, .batch, .result]

theorem entry_or_named {handle : DriverHandle} (own : handle.isOwn = true) :
    (∃ index, handle = .entry index) ∨ handle ∈ namedHandles := by
  cases handle with
  | entry index => exact .inl ⟨index, rfl⟩
  | session | cachedResult | ownStatement => cases own
  | future | statement | batch | result => exact .inr (by decide)

theorem balanced_of_named {trace : List HandleEvent}
    (even : ∀ handle ∈ namedHandles, (balance trace handle).Even)
    (owned : ∀ handle ∈ namedHandles, ∀ field ∈ fields trace handle, IsFreed field)
    (entries : ∀ index, balance trace (.entry index) = {} ∧ fields trace (.entry index) = []) :
    HandlesBalanced trace := by
  constructor
  · intro handle own
    rcases entry_or_named own with ⟨index, rfl⟩ | member
    · rw [(entries index).1]
      decide
    · exact even handle member
  · intro handle own field kept
    rcases entry_or_named own with ⟨index, rfl⟩ | member
    · rw [(entries index).2] at kept
      cases kept
    · exact owned handle member field kept

theorem balanced_nil : HandlesBalanced [] :=
  balanced_of_named (by decide) (by decide) (fun _ => ⟨rfl, rfl⟩)

theorem future_balanced : HandlesBalanced [.acquire .future, .release .future] :=
  balanced_of_named (by decide) (by decide) (fun _ => ⟨rfl, rfl⟩)

section

variable {decode : Content → Except Exception (List Row)}
variable {self : RowsObject Token Content Row}

theorem rowsCreate_balanced (nextResult : CassResult Token Content) :
    HandlesBalanced (rowsCreateEvents decode self .cachedResult nextResult) := by
  unfold rowsCreateEvents
  split
  · exact balanced_nil
  · split
    · exact balanced_of_named (by decide) (by decide) (fun _ => ⟨rfl, rfl⟩)
    · exact balanced_nil

theorem rowsCreate_cached_balanced (result : CassResult Token Content) :
    HandlesBalanced ([.addRef .cachedResult, .hold .cachedResult (.rows, .nextResult)] ++
      rowsCreateEvents decode self .cachedResult result) := by
  unfold rowsCreateEvents
  split
  · exact balanced_of_named (by decide) (by decide) (fun _ => ⟨rfl, rfl⟩)
  · split
    · exact balanced_of_named (by decide) (by decide) (fun _ => ⟨rfl, rfl⟩)
    · exact balanced_of_named (by decide) (by decide) (fun _ => ⟨rfl, rfl⟩)

theorem nextPage_balanced {future : Option (FutureObject Token Content Row)}
    {answer : PageAnswer Token Content}
    (letsGo : (HandleCall.nextPage decode self future answer).LetsGo) :
    HandlesBalanced (nextPageEvents decode self future answer) := by
  unfold nextPageEvents
  cases next : self.nextResult with
  | some nextResult => exact rowsCreate_balanced nextResult
  | none =>
      obtain ⟨pendingWaits, requestFails⟩ := letsGo next
      cases future with
      | some future =>
          cases future with
          | value _ => exact balanced_nil
          | rows pending =>
              dsimp only
              cases there : pending.result with
              | some result => exact rowsCreate_cached_balanced result
              | none =>
                  cases wait : answer.wait with
                  | failed _ => exact balanced_nil
                  | noResult => exact balanced_nil
                  | ready => exact absurd wait (pendingWaits pending rfl there)
      | none =>
          cases more : self.result with
          | none => exact balanced_nil
          | some result =>
              cases accepted : answer.accepted with
              | false => exact balanced_nil
              | true =>
                  rw [more] at requestFails
                  rw [requestFails rfl rfl accepted]
                  exact future_balanced

theorem nextPage_letsGo {future : Option (FutureObject Token Content Row)}
    {answer : PageAnswer Token Content}
    (balanced : HandlesBalanced (nextPageEvents decode self future answer)) :
    (HandleCall.nextPage decode self future answer).LetsGo := by
  intro next
  constructor
  · rintro pending rfl there wait
    simp only [nextPageEvents, next, there, wait] at balanced
    have freed := balanced.owned .result rfl (.futureRows, .result)
      (by rw [fields_append]; exact List.mem_append_left _ (by decide))
    exact absurd freed (by decide)
  · rintro rfl more accepted
    obtain ⟨result, more⟩ := Option.isSome_iff_exists.mp more
    simp only [nextPageEvents, next, more, accepted, if_true] at balanced
    cases wait : answer.wait with
    | noResult => rfl
    | failed exception =>
        simp only [wait] at balanced
        exact absurd (balanced.even .future rfl) (by decide)
    | ready =>
        simp only [wait] at balanced
        have freed := balanced.owned .result rfl (.rows, .nextResult)
          (by rw [fields_append]; exact List.mem_append_left _ (by decide))
        exact absurd freed (by decide)

theorem nextPageAsync_balanced_iff (answer : PageAnswer Token Content) :
    HandlesBalanced (nextPageAsyncEvents decode self answer) ↔
      (HandleCall.nextPageAsync decode self answer).LetsGo := by
  constructor
  · intro balanced noFuture next more
    obtain ⟨result, more⟩ := Option.isSome_iff_exists.mp more
    simp only [nextPageAsyncEvents, noFuture, next, more] at balanced
    cases accepted : answer.accepted with
    | false => rfl
    | true =>
        rw [accepted, if_pos rfl] at balanced
        have freed := balanced.owned .future rfl (.futureRows, .future) (by decide)
        exact absurd freed (by decide)
  · intro letsGo
    unfold nextPageAsyncEvents
    cases noFuture : self.futureNextPage with
    | some _ => exact balanced_nil
    | none =>
        cases next : self.nextResult with
        | some _ => exact rowsCreate_balanced _
        | none =>
            cases more : self.result with
            | none => exact balanced_nil
            | some result =>
                have refused : answer.accepted = false :=
                  letsGo noFuture next (by rw [more]; rfl)
                dsimp only
                rw [refused, if_neg Bool.false_ne_true]
                exact balanced_nil

end

/-! `connect`. -/

theorem connect_balanced_iff (persist listed : Bool) (outcome : Outcome) :
    HandlesBalanced (connectEvents persist listed outcome) ↔
      (persist = false → outcome ≠ .success) := by
  constructor
  · rintro balanced rfl rfl
    have even := balanced.even .future rfl
    rw [show connectEvents false listed .success = connectEvents false false .success by
      cases listed <;> rfl] at even
    exact absurd even (by decide)
  · intro letsGo
    cases persist <;> cases outcome
    case false.success => exact absurd rfl (letsGo rfl)
    all_goals
      cases listed <;> exact balanced_of_named (by decide) (by decide) (fun _ => ⟨rfl, rfl⟩)

/-! `prepare` and `close`. -/

theorem prepare_balanced (answer : PrepareAnswer) (cql : List UInt8)
    (options : Option OptionsArgument) : HandlesBalanced (prepare answer cql options).events := by
  unfold prepare
  split
  · exact balanced_nil
  · exact future_balanced

theorem close_balanced (session : DefaultSession) (answer : Except Exception Unit)
    (timeout : Option Timeout) : HandlesBalanced (close session answer timeout).events := by
  unfold close
  split
  · exact balanced_nil
  · exact future_balanced

/-! `execute`. -/

section

variable {session : DefaultSession} {preparation : Preparation}

def FreedOnce (balance : Balance) : Prop :=
  balance = {} ∨ balance = { acquired := 1, released := 1 }

variable (preparation) in
theorem createStatement_events (handle : DriverHandle) (statement : SingleStatement)
    (arguments : Option Arguments) :
    (∃ content, createStatement preparation handle statement arguments =
        ([.acquire handle], .ok content)) ∨
      ∃ interruption, createStatement preparation handle statement arguments =
        ([.acquire handle, .release handle], .error interruption) := by
  unfold createStatement
  split
  · exact .inl ⟨_, rfl⟩
  · exact .inr ⟨_, rfl⟩

/-- The loop deals with the statements from its index on, and with nothing else. -/
structure EntriesFreed (index : Nat) (trace : List HandleEvent) : Prop where
  freed : ∀ entry, FreedOnce (balance trace (.entry entry))
  before : ∀ entry < index, balance trace (.entry entry) = {}
  others : ∀ handle ∈ namedHandles, balance trace handle = {}
  owned : ∀ handle, fields trace handle = []

theorem entriesFreed_nil (index : Nat) : EntriesFreed index [] :=
  ⟨fun _ => .inl rfl, fun _ _ => rfl, fun _ _ => rfl, fun _ => rfl⟩

theorem EntriesFreed.cons {index : Nat} {trace : List HandleEvent}
    (rest : EntriesFreed (index + 1) trace) :
    EntriesFreed index (.acquire (.entry index) :: .release (.entry index) :: trace) := by
  constructor
  · intro entry
    by_cases same : index = entry
    · subst same
      right
      simp only [balance_cons, handle, if_true]
      rw [rest.before index (Nat.lt_succ_self index)]
      rfl
    · simpa [balance_cons, handle, same] using rest.freed entry
  · intro entry before
    have same : index ≠ entry := by omega
    simpa [balance_cons, handle, same] using rest.before entry (by omega)
  · intro other member
    have same : DriverHandle.entry index ≠ other := by
      rintro rfl
      simp [namedHandles] at member
    simpa [balance_cons, handle, same] using rest.others other member
  · intro other
    simpa [fields, field] using rest.owned other

variable (preparation) in
theorem addStatements_freed (entries : List BatchEntry) (index : Nat) :
    EntriesFreed index (addStatements preparation index entries).1 := by
  induction entries generalizing index with
  | nil => exact entriesFreed_nil index
  | cons entry entries ih =>
      rcases createStatement_events preparation (.entry index) entry.statement
        entry.arguments with ⟨content, created⟩ | ⟨interruption, failed⟩
      · simp only [addStatements, created]
        exact (ih (index + 1)).cons
      · simp only [addStatements, failed]
        exact (entriesFreed_nil (index + 1)).cons

/-- What comes before and after the loop is balanced on its own. -/
theorem EntriesFreed.balanced {index : Nat} {before trace after : List HandleEvent}
    (freed : EntriesFreed index trace)
    (named : ∀ handle ∈ namedHandles, (balance (before ++ after) handle).Even)
    (entries : ∀ index, balance before (.entry index) = {} ∧ balance after (.entry index) = {})
    (owned : ∀ handle, fields (before ++ after) handle = []) :
    HandlesBalanced (before ++ trace ++ after) := by
  constructor
  · intro handle own
    rw [balance_append, balance_append]
    rcases entry_or_named own with ⟨entry, rfl⟩ | member
    · rw [(entries entry).1, (entries entry).2]
      rcases freed.freed entry with untouched | released
      · rw [untouched]
        decide
      · rw [released]
        decide
    · rw [freed.others handle member, Balance.add_zero]
      have even := named handle member
      rw [balance_append] at even
      exact even
  · intro handle _ field kept
    rw [fields_append, fields_append, freed.owned, List.append_nil, ← fields_append,
      owned] at kept
    cases kept

variable (preparation) in
theorem createBatch_cases (type : Nat) (entries : List BatchEntry)
    (settings : ExecutionSettings) :
    ∃ trace, EntriesFreed 0 trace ∧
      ((∃ request, createBatch preparation type entries settings =
          (.acquire .batch :: trace, .ok request)) ∨
        ∃ interruption, createBatch preparation type entries settings =
          (.acquire .batch :: trace ++ [.release .batch], .error interruption)) := by
  have freed := addStatements_freed preparation entries 0
  refine ⟨_, freed, ?_⟩
  simp only [createBatch]
  generalize addStatements preparation 0 entries = added
  obtain ⟨events, statements | interruption⟩ := added
  · exact .inr ⟨_, rfl⟩
  · cases preparation.settings with
    | some exception => exact .inr ⟨_, rfl⟩
    | none => exact .inl ⟨_, rfl⟩

variable (preparation) in
theorem createSingle_cases (statement : SingleStatement) (settings : ExecutionSettings) :
    (preparation.Takes settings ∧
        ∃ request, createSingle preparation statement settings =
          ([.acquire .statement], .ok request)) ∨
      ¬preparation.Takes settings ∧
        ∃ interruption, createSingle preparation statement settings =
          ([.acquire .statement, .release .statement], .error interruption) := by
  have bound_iff : (∃ items, (settings.arguments.map
      (bindArguments preparation .statement)).getD (.ok []) = .ok items) ↔
        ∀ arguments, settings.arguments = some arguments → ∀ argument ∈ arguments,
          ∃ item, preparation.bind .statement argument.1 argument.2 = .bound item := by
    cases settings.arguments with
    | none => simp
    | some arguments => simpa using bindArguments_ok_iff preparation .statement arguments
  simp only [createSingle, createStatement]
  cases bound : (settings.arguments.map
      (bindArguments preparation .statement)).getD (.ok []) with
  | error interruption =>
      refine .inr ⟨fun takes => ?_, _, rfl⟩
      obtain ⟨items, same⟩ := bound_iff.mpr takes.bound
      rw [bound] at same
      cases same
  | ok items =>
      cases accepted : preparation.settings with
      | some exception =>
          refine .inr ⟨fun takes => ?_, _, rfl⟩
          rw [takes.accepted] at accepted
          cases accepted
      | none => exact .inl ⟨⟨accepted, bound_iff.mp ⟨items, bound⟩⟩, _, rfl⟩

variable {answer : DriverAnswer Token Content Row}

theorem awaitRows_paged (page : AnswersPage answer) (request : StatementRequest) :
    (awaitRows answer (.single request)).1 =
      [.acquire .result, .release .future,
        .newRef .statement, .hold .statement (.newRows, .statement),
        .newRef .result, .hold .result (.newRows, .result),
        .addRef .session, .hold .session (.newRows, .session)] := by
  obtain ⟨rows, decoded⟩ := page.decoded
  simp [awaitRows, page.ready, decoded, page.more, Sent.isSingle]

theorem awaitRows_unpaged {sent : Sent} (unpaged : sent.isSingle = true → ¬AnswersPage answer) :
    (awaitRows answer sent).1 = .release .future :: sent.free ∨
      (awaitRows answer sent).1 =
        [.acquire .result, .release .future, .release .result] ++ sent.free := by
  unfold awaitRows
  cases wait : answer.wait with
  | failed _ => exact .inl rfl
  | noResult => exact .inl rfl
  | ready =>
      dsimp only
      cases decoded : answer.decode answer.result.content with
      | error _ => exact .inr rfl
      | ok rows =>
          dsimp only
          split
          · rename_i paged
            exact absurd ⟨wait, ⟨rows, decoded⟩, paged.2⟩ (unpaged paged.1)
          · exact .inr rfl

theorem statement_balanced_iff (request : StatementRequest) :
    HandlesBalanced ([.acquire .statement] ++ .acquire .future ::
      (awaitRows answer (.single request)).1) ↔ ¬AnswersPage answer := by
  constructor
  · intro balanced page
    rw [awaitRows_paged page] at balanced
    have freed := balanced.owned .statement rfl (.newRows, .statement) (by decide)
    exact absurd freed (by decide)
  · intro unpaged
    rcases @awaitRows_unpaged _ _ _ answer (.single request) (fun _ => unpaged) with
      failed | read
    · rw [failed, Sent.free]
      exact balanced_of_named (by decide) (by decide) (fun _ => ⟨rfl, rfl⟩)
    · rw [read, Sent.free]
      exact balanced_of_named (by decide) (by decide) (fun _ => ⟨rfl, rfl⟩)

theorem batch_balanced (request : BatchRequest) {trace : List HandleEvent}
    (freed : EntriesFreed 0 trace) :
    HandlesBalanced ([.acquire .batch] ++ trace ++ .acquire .future ::
      (awaitRows answer (.batch request)).1) := by
  rcases @awaitRows_unpaged _ _ _ answer (.batch request) (fun single => by cases single) with
    failed | read
  · rw [failed, Sent.free]
    exact freed.balanced (by decide) (fun _ => ⟨rfl, rfl⟩) (fun _ => by simp [fields, field])
  · rw [read, Sent.free]
    exact freed.balanced (by decide) (fun _ => ⟨rfl, rfl⟩) (fun _ => by simp [fields, field])

variable (session preparation answer) in
theorem execute_balanced_iff (statement : StatementArgument) (options : Option OptionsArgument) :
    HandlesBalanced (execute session preparation answer statement options).events ↔
      (SendsStatement session preparation statement options → ¬AnswersPage answer) := by
  simp only [execute, makeRequest, SendsStatement]
  cases readArguments session statement options with
  | error failure => exact iff_of_true balanced_nil (by simp)
  | ok arguments =>
      obtain ⟨statement, settings⟩ := arguments
      cases statement with
      | single statement =>
          simp only [createRequest]
          rcases createSingle_cases preparation statement settings with
            ⟨takes, request, created⟩ | ⟨refused, interruption, failed⟩
          · rw [created]
            refine (statement_balanced_iff request).trans ?_
            exact ⟨fun unpaged _ => unpaged,
              fun unpaged => unpaged ⟨statement, settings, rfl, takes⟩⟩
          · rw [failed]
            refine iff_of_true ?_ ?_
            · have balanced : HandlesBalanced [.acquire .statement, .release .statement] :=
                balanced_of_named (by decide) (by decide) (fun _ => ⟨rfl, rfl⟩)
              exact balanced
            · rintro ⟨_, _, same, takes⟩
              obtain ⟨_, rfl⟩ := Prod.mk.inj (Except.ok.inj same)
              exact absurd takes refused
      | batch type entries =>
          simp only [createRequest]
          refine iff_of_true ?_ (by simp)
          obtain ⟨trace, freed, ⟨request, created⟩ | ⟨interruption, failed⟩⟩ :=
            createBatch_cases preparation type entries settings
          · rw [created]
            exact batch_balanced request freed
          · rw [failed]
            have balanced : HandlesBalanced ([.acquire .batch] ++ trace ++ [.release .batch]) :=
              freed.balanced (by decide) (fun _ => ⟨rfl, rfl⟩)
                (fun _ => by simp [fields, field])
            exact balanced

end

/-- A session that is not persistent, a statement whose answer has more pages, a page that
cannot be had, and a page that is requested. -/
theorem handles_leak :
    ¬HandlesBalanced
      (HandleCall.connect false false .success : HandleCall Nat Unit Unit).events ∧
    ¬HandlesBalanced (HandleCall.execute {} (.accepting Gmp.reference (.runtime ""))
      { wait := .ready, result := { content := (), pagingState := some 1 },
        decode := fun _ => .ok [()] } (.string (ascii "SELECT 1")) none :
          HandleCall Nat Unit Unit).events ∧
    ¬HandlesBalanced (HandleCall.nextPage (fun _ => .ok [])
      { rows := [()], result := some { content := (), pagingState := some 1 } } none
      { accepted := true, wait := .failed (.timeout ""),
        result := { content := (), pagingState := none } } :
          HandleCall Nat Unit Unit).events ∧
    ¬HandlesBalanced (HandleCall.nextPageAsync (fun _ => .ok [])
      { rows := [()], result := some { content := (), pagingState := some 1 } }
      { accepted := true, wait := .ready,
        result := { content := (), pagingState := none } } :
          HandleCall Nat Unit Unit).events := by
  refine ⟨?_, ?_, ?_, ?_⟩
  · intro balanced
    exact absurd (balanced.even .future rfl) (by decide)
  · exact @not_balanced_of_field _ _ _ _ _ _ .statement (.newRows, .statement) rfl
      (by decide) (by decide)
  · intro balanced
    exact absurd (balanced.even .future rfl) (by decide)
  · exact @not_balanced_of_field _ _ _ _ _ _ .future (.futureRows, .future) rfl
      (by decide) (by decide)

/-- Handles are balanced but for the future of a session that is not persistent, that of a page
which `nextPage` requests itself and does not get, and what is left to an object. -/
theorem handles_balanced_iff (call : HandleCall Token Content Row) :
    HandlesBalanced call.events ↔ call.LetsGo := by
  cases call with
  | connect persist listed outcome => exact connect_balanced_iff persist listed outcome
  | execute session preparation answer statement options =>
      exact execute_balanced_iff session preparation answer statement options
  | prepare answer cql options => exact iff_of_true (prepare_balanced answer cql options) trivial
  | close session answer timeout =>
      exact iff_of_true (close_balanced session answer timeout) trivial
  | nextPage decode self future answer => exact ⟨nextPage_letsGo, nextPage_balanced⟩
  | nextPageAsync decode self answer => exact nextPageAsync_balanced_iff answer

end PhpDriver
