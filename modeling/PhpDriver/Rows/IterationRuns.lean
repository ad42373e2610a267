import PhpDriver.Rows.Iteration

namespace PhpDriver

open Data

/-! Runs in which no object asks for a place that another one has moved. -/

variable {server : Option Token → CassResult Token Content}
variable {decode : Content → Except Exception (List Row)}

/-! What the calls on the query do to the pages of the objects. -/

namespace Query

variable {query next : Query Token Content Row} {self : Nat} {current : RowsObject Token Content Row}

theorem pages_set (there : query.rows[self]? = some current)
    {changed : RowsObject Token Content Row} (same : changed.rows = current.rows) :
    (query.rows.set self changed).map RowsObject.rows = query.pages := by
  apply List.ext_getElem?
  intro index
  rw [pages, List.getElem?_map, List.getElem?_map, List.getElem?_set]
  split
  · rename_i here
    subst here
    have inside := (List.getElem?_eq_some_iff.mp there).1
    rw [if_pos inside, there]
    simp [same]
  · rfl

theorem rowsCreate_pages {created : Except Exception Nat}
    (call : query.rowsCreate decode self = some (next, created)) :
    query.pages <+: next.pages := by
  simp only [rowsCreate, Option.bind_eq_bind, Option.bind_eq_some_iff] at call
  obtain ⟨current, there, nextResult, _, call⟩ := call
  split at call
  · obtain ⟨rfl, -⟩ := Prod.mk.inj (Option.some.inj call)
    exact List.prefix_rfl
  · obtain ⟨rfl, -⟩ := Prod.mk.inj (Option.some.inj call)
    simp only [pages, List.map_append]
    rw [pages_set there]
    · exact List.prefix_append _ _
    · rfl

theorem fetchNextResult_pages {outcome : WaitOutcome} {early : Except Reply Unit}
    (call : fetchNextResult server query self outcome = some (next, early)) :
    next.pages = query.pages := by
  simp only [fetchNextResult, Option.bind_eq_bind, Option.bind_eq_some_iff] at call
  obtain ⟨current, there, call⟩ := call
  split at call
  · obtain ⟨rfl, -⟩ := Prod.mk.inj (Option.some.inj call)
    rfl
  · split at call
    · rw [Option.bind_eq_some_iff] at call
      obtain ⟨future, _, call⟩ := call
      split at call
      · obtain ⟨rfl, -⟩ := Prod.mk.inj (Option.some.inj call)
        rfl
      · split at call
        · obtain ⟨rfl, -⟩ := Prod.mk.inj (Option.some.inj call)
          rfl
        · obtain ⟨rfl, -⟩ := Prod.mk.inj (Option.some.inj call)
          exact pages_set there rfl
    · split at call
      · obtain ⟨rfl, -⟩ := Prod.mk.inj (Option.some.inj call)
        rfl
      · split at call
        · obtain ⟨rfl, -⟩ := Prod.mk.inj (Option.some.inj call)
          rfl
        · obtain ⟨rfl, -⟩ := Prod.mk.inj (Option.some.inj call)
          exact pages_set there rfl

theorem nextPage_pages {outcome : WaitOutcome} {reply : Reply}
    (call : nextPage server decode query self outcome = some (next, reply)) :
    query.pages <+: next.pages := by
  simp only [nextPage, Option.bind_eq_bind, Option.bind_eq_some_iff] at call
  obtain ⟨⟨fetched, early⟩, fetch, call⟩ := call
  have same := fetchNextResult_pages fetch
  rw [← same]
  split at call
  · rename_i fetchedEarly
    obtain ⟨rfl, -⟩ := Prod.mk.inj fetchedEarly
    obtain ⟨rfl, -⟩ := Prod.mk.inj (Option.some.inj call)
    exact List.prefix_rfl
  · rename_i fetchedAll
    obtain ⟨rfl, -⟩ := Prod.mk.inj fetchedAll
    rw [Option.bind_eq_some_iff] at call
    obtain ⟨⟨last, created⟩, create, call⟩ := call
    obtain ⟨rfl, -⟩ := Prod.mk.inj (Option.some.inj call)
    exact rowsCreate_pages create

theorem nextPageAsync_pages {reply : Reply}
    (call : nextPageAsync decode query self = some (next, reply)) :
    query.pages <+: next.pages := by
  simp only [nextPageAsync, Option.bind_eq_bind, Option.bind_eq_some_iff] at call
  obtain ⟨current, there, call⟩ := call
  split at call
  · obtain ⟨rfl, -⟩ := Prod.mk.inj (Option.some.inj call)
    exact List.prefix_rfl
  · split at call
    · rw [Option.bind_eq_some_iff] at call
      obtain ⟨⟨last, created⟩, create, call⟩ := call
      have kept : query.pages <+: last.pages := by
        have grown := rowsCreate_pages create
        rw [pages, pages_set there] at grown
        · exact grown
        · rfl
      split at call
      · obtain ⟨rfl, -⟩ := Prod.mk.inj (Option.some.inj call)
        exact kept
      · obtain ⟨rfl, -⟩ := Prod.mk.inj (Option.some.inj call)
        exact kept
    · split at call
      · obtain ⟨rfl, -⟩ := Prod.mk.inj (Option.some.inj call)
        exact List.prefix_rfl
      · obtain ⟨rfl, -⟩ := Prod.mk.inj (Option.some.inj call)
        refine ⟨[], ?_⟩
        rw [List.append_nil]
        exact Eq.symm (pages_set there rfl)

theorem get_pages {outcome : WaitOutcome} {reply : Reply}
    (call : get server decode query self outcome = some (next, reply)) :
    query.pages <+: next.pages := by
  simp only [get, Option.bind_eq_bind, Option.bind_eq_some_iff] at call
  obtain ⟨future, _, call⟩ := call
  split at call
  · obtain ⟨rfl, -⟩ := Prod.mk.inj (Option.some.inj call)
    exact List.prefix_rfl
  · obtain ⟨rfl, -⟩ := Prod.mk.inj (Option.some.inj call)
    exact List.prefix_rfl
  · split at call
    · obtain ⟨rfl, -⟩ := Prod.mk.inj (Option.some.inj call)
      exact List.prefix_rfl
    · split at call
      · obtain ⟨rfl, -⟩ := Prod.mk.inj (Option.some.inj call)
        exact List.prefix_rfl
      · obtain ⟨rfl, -⟩ := Prod.mk.inj (Option.some.inj call)
        simp only [pages, List.map_append]
        exact List.prefix_append _ _

theorem execute_pages (outcome : WaitOutcome) :
    query.pages <+: (query.execute server decode outcome).1.pages := by
  unfold execute
  split
  · exact List.prefix_rfl
  · dsimp only
    split
    · exact List.prefix_rfl
    · simp only [pages, List.map_append]
      exact List.prefix_append _ _

end Query

theorem queryCall_pages {query next : Query Token Content Row} {call : Call} {reply : Reply}
    (called : queryCall server decode query call = some (next, reply)) :
    query.pages <+: next.pages := by
  cases call with
  | execute outcome =>
      rw [queryCall] at called
      split at called
      · have executed : query.pages <+: (query.execute server decode outcome).1.pages :=
          query.execute_pages outcome
        rw [Option.some.inj called] at executed
        exact executed
      · cases called
  | executeAsync =>
      rw [queryCall] at called
      split at called
      · obtain ⟨rfl, -⟩ := Prod.mk.inj (Option.some.inj called)
        exact List.prefix_rfl
      · cases called
  | isLastPage self =>
      obtain ⟨_, _, same⟩ := Option.map_eq_some_iff.mp called
      obtain ⟨rfl, -⟩ := Prod.mk.inj same
      exact List.prefix_rfl
  | nextPage self outcome => exact Query.nextPage_pages called
  | nextPageAsync self => exact Query.nextPageAsync_pages called
  | get self outcome => exact Query.get_pages called

namespace Iteration

variable {state next : Iteration Token Content Row} {self : Nat}

theorem step_query_cases {call : Call} (step : state.step server decode (.query call) = some next) :
    ∃ query reply, queryCall server decode state.query call = some (query, reply) ∧
      next = { state with
        query
        arrays := state.arrays ++
          List.replicate (query.rows.length - state.query.rows.length) call.array } := by
  simp only [Iteration.step, Option.bind_eq_bind, Option.bind_eq_some_iff] at step
  obtain ⟨⟨query, reply⟩, called, step⟩ := step
  exact ⟨query, reply, called, (Option.some.inj step).symm⟩

theorem step_rows_cases {call : RowsCall}
    (step : state.step server decode (.rows self call) = some next) :
    ∃ page array, state.query.pages[self]? = some page ∧ state.arrays[self]? = some array ∧
      next = { state with
        position := Function.update state.position array
          (rowsCall page (state.position array) call).1
        log := state.log ++ [⟨self, call, (rowsCall page (state.position array) call).2,
          (rowsCall page (state.position array) call).1 ≠ state.position array⟩] } := by
  simp only [Iteration.step, Option.bind_eq_bind, Option.bind_eq_some_iff] at step
  obtain ⟨page, pageAt, array, arrayAt, step⟩ := step
  exact ⟨page, array, pageAt, arrayAt, (Option.some.inj step).symm⟩

theorem foldl_disturbedBy {arrays : List RowsArray} {log : List (RowsEntry Row)}
    (unlogged : ∀ entry ∈ log, entry.self ≠ self) (before : Bool) :
    log.foldl (disturbedBy arrays self) before =
      (before || log.any fun entry => entry.moved && arrays[entry.self]? = arrays[self]?) := by
  induction log generalizing before with
  | nil => simp
  | cons entry log ih =>
      have other := unlogged entry List.mem_cons_self
      rw [List.foldl_cons, ih fun entry member => unlogged entry (List.mem_cons_of_mem _ member),
        disturbedBy, if_neg other, List.any_cons, Bool.or_assoc]

/-- The invariant: an object that is not disturbed is where its own calls have brought it. -/
structure Settled (state : Iteration Token Content Row) : Prop where
  sized : state.arrays.length = state.query.pages.length
  logged : ∀ entry ∈ state.log, entry.self < state.query.pages.length
  unmoved : ∀ array, (∀ entry ∈ state.log, entry.moved = true →
    state.arrays[entry.self]? ≠ some array) → state.position array = 0
  placed : ∀ self page array, state.query.pages[self]? = some page →
    state.arrays[self]? = some array → state.disturbed self = false →
    state.position array = stateAfter (privateCall page) 0 (state.callsOn self)
  answered : state.Independent

theorem Settled.initial (query : Query Token Content Row) (empty : query.rows = []) :
    Settled { query } where
  sized := by simp [Query.pages, empty]
  logged := by simp
  unmoved := fun _ _ => rfl
  placed := by simp [Query.pages, empty]
  answered := by
    intro self page
    simp [Query.pages, empty]

theorem getElem?_of_start {items more : List α} (prefixed : items <+: more) {index : Nat}
    (inside : index < items.length) : more[index]? = items[index]? := by
  obtain ⟨rest, rfl⟩ := prefixed
  exact List.getElem?_append_left inside

/-- Objects that are already there notice nothing of a call on the query. -/
theorem disturbed_of_prefix {arrays : List RowsArray} (prefixed : state.arrays <+: arrays)
    (logged : ∀ entry ∈ state.log, entry.self < state.arrays.length)
    (inside : self < state.arrays.length) :
    state.log.foldl (disturbedBy arrays self) false = state.disturbed self := by
  apply List.foldl_ext
  intro disturbed entry member
  rw [disturbedBy, disturbedBy, getElem?_of_start prefixed inside,
    getElem?_of_start prefixed (logged entry member)]

theorem Settled.query (settled : state.Settled) {call : Call}
    (step : state.step server decode (.query call) = some next) : next.Settled := by
  obtain ⟨query, reply, called, rfl⟩ := step_query_cases step
  have pages := queryCall_pages called
  have longer := pages.length_le
  have sized := settled.sized
  have lengths : query.rows.length - state.query.rows.length =
      query.pages.length - state.query.pages.length := by simp [Query.pages]
  have arrays : state.arrays <+: state.arrays ++
      List.replicate (query.rows.length - state.query.rows.length) call.array :=
    List.prefix_append _ _
  constructor
  · simp only [List.length_append, List.length_replicate]
    omega
  · intro entry member
    exact Nat.lt_of_lt_of_le (settled.logged entry member) longer
  · intro array others
    apply settled.unmoved
    intro entry member moved
    have other := others entry member moved
    rw [getElem?_of_start arrays (by rw [sized]; exact settled.logged entry member)] at other
    exact other
  · intro self page array pageAt arrayAt undisturbed
    rcases Nat.lt_or_ge self state.query.pages.length with old | new
    · rw [getElem?_of_start pages old] at pageAt
      rw [getElem?_of_start arrays (by omega)] at arrayAt
      have placed : self < state.arrays.length := by omega
      have same := disturbed_of_prefix arrays (by rw [sized]; exact settled.logged) placed
      exact settled.placed self page array pageAt arrayAt (same.symm.trans undisturbed)
    · -- no call was made on a new object
      have unlogged : ∀ entry ∈ state.log, entry.self ≠ self := by
        intro entry member
        have bound := settled.logged entry member
        omega
      have none : state.log.filter (·.self = self) = [] := by
        simpa using unlogged
      rw [disturbed, foldl_disturbedBy unlogged, Bool.false_or, List.any_eq_false] at undisturbed
      have unmoved : state.position array = 0 := by
        apply settled.unmoved
        intro entry member moved there
        have other := undisturbed entry member
        rw [moved, arrayAt, getElem?_of_start arrays (by
          rw [sized]; exact settled.logged entry member), there] at other
        simp at other
      rw [unmoved]
      simp only [callsOn, none]
      rfl
  · intro self page pageAt
    rcases Nat.lt_or_ge self state.query.pages.length with old | new
    · rw [getElem?_of_start pages old] at pageAt
      exact settled.answered self page pageAt
    · have none : state.log.filter (·.self = self) = [] := by
        rw [List.filter_eq_nil_iff]
        intro entry member
        have bound := settled.logged entry member
        simp
        omega
      simp only [answersOn, callsOn, none]
      rfl

theorem privateCall_fst (page : List Row) (position : Nat) (call : RowsCall) :
    (privateCall page position call).1 = (rowsCall page position call).1 := by
  cases call <;> rfl

theorem rowsCall_snd {page : List Row} {array : RowsArray} {place : Nat} {call : RowsCall}
    (pageAt : state.query.pages[self]? = some page) (arrayAt : state.arrays[self]? = some array)
    (undisturbed : state.Undisturbed (.rows self call))
    (placed : state.disturbed self = false → state.position array = place) :
    (rowsCall page (state.position array) call).2 = (privateCall page place call).2 := by
  cases call with
  | count => rfl
  | rewind => rfl
  | next => rfl
  | current =>
      rw [placed (by simpa [Undisturbed, Iteration.undisturbed] using undisturbed)]
      rfl
  | key =>
      rw [placed (by simpa [Undisturbed, Iteration.undisturbed] using undisturbed)]
      rfl
  | valid =>
      rw [placed (by simpa [Undisturbed, Iteration.undisturbed] using undisturbed)]
      rfl
  | first =>
      simp only [Undisturbed, Iteration.undisturbed, atFirst, List.getD_eq_getElem?_getD, pageAt,
        arrayAt, Option.getD_some, Option.elim_some, Bool.or_eq_true, List.isEmpty_iff,
        decide_eq_true_eq] at undisturbed
      rcases undisturbed with rfl | start
      · rfl
      · rw [start]
        rfl

theorem Settled.rows (settled : state.Settled) {call : RowsCall}
    (undisturbed : state.Undisturbed (.rows self call))
    (step : state.step server decode (.rows self call) = some next) : next.Settled := by
  obtain ⟨page, array, pageAt, arrayAt, rfl⟩ := step_rows_cases step
  have placed := settled.placed self page array pageAt arrayAt
  constructor
  · exact settled.sized
  · intro entry member
    rcases List.mem_append.mp member with old | new
    · exact settled.logged entry old
    · obtain rfl := List.mem_singleton.mp new
      exact (List.getElem?_eq_some_iff.mp pageAt).1
  · intro other others
    have before : state.position other = 0 :=
      settled.unmoved other fun entry member => others entry (List.mem_append_left _ member)
    by_cases same : other = array
    · subst same
      have unmoved : (rowsCall page (state.position other) call).1 = state.position other := by
        by_contra moved
        exact others _ (List.mem_append_right _ (List.mem_singleton.mpr rfl)) (by simpa using moved)
          arrayAt
      dsimp only
      rw [Function.update_self, unmoved]
      exact before
    · dsimp only
      rw [Function.update_of_ne same]
      exact before
  · intro other otherPage otherArray otherPageAt otherArrayAt quiet
    rw [disturbed, List.foldl_append, List.foldl_cons, List.foldl_nil, disturbedBy] at quiet
    by_cases same : self = other
    · subst same
      obtain rfl := Option.some.inj (pageAt.symm.trans otherPageAt)
      obtain rfl := Option.some.inj (arrayAt.symm.trans otherArrayAt)
      rw [if_pos rfl, Bool.and_eq_false_iff] at quiet
      simp only [callsOn, List.filter_append, List.map_append, List.filter_cons, decide_true,
        if_true, List.filter_nil, List.map_cons, List.map_nil, Function.update_self]
      rw [stateAfter_append]
      simp only [stateAfter, List.foldl_cons, List.foldl_nil, privateCall_fst]
      rcases quiet with quiet | rewound
      · rw [placed quiet]
        simp only [stateAfter, callsOn, privateCall_fst]
      · obtain rfl : call = .rewind := by simpa using rewound
        rfl
    · rw [if_neg same, Bool.or_eq_false_iff] at quiet
      have before := settled.placed other otherPage otherArray otherPageAt otherArrayAt quiet.1
      refine Eq.trans ?_ (before.trans (by simp [callsOn, same]))
      by_cases shared : otherArray = array
      · subst shared
        have unmoved := quiet.2
        simp only [arrayAt, otherArrayAt, decide_true, Bool.and_true] at unmoved
        dsimp only
        rw [Function.update_self]
        simpa using unmoved
      · exact Function.update_of_ne shared _ _
  · intro other otherPage otherPageAt
    have before := settled.answered other otherPage otherPageAt
    by_cases same : self = other
    · subst same
      obtain rfl := Option.some.inj (pageAt.symm.trans otherPageAt)
      simp only [answersOn, callsOn, List.filter_append, List.map_append, List.filter_cons,
        decide_true, if_true, List.filter_nil, List.map_cons, List.map_nil, privateAnswers]
      rw [responses_append]
      simp only [answersOn, callsOn, privateAnswers] at before
      rw [before, rowsCall_snd pageAt arrayAt undisturbed placed]
      rfl
    · simpa [answersOn, callsOn, same] using before

theorem settled_of_run {query : Query Token Content Row} (empty : query.rows = [])
    {calls : List IterationCall} {last : Iteration Token Content Row}
    (run : Run (Iteration.step server decode) Undisturbed { query } calls last) : last.Settled := by
  refine run.invariant ?_ (.initial query empty)
  intro state call next settled undisturbed step
  cases call with
  | query call => exact settled.query step
  | rows self call => exact settled.rows undisturbed step

/-! What an iteration by `foreach` is answered. -/

def foreachCalls : Nat → List RowsCall
  | 0 => [.valid]
  | more + 1 => [.valid, .current, .key, .next] ++ foreachCalls more

def foreachAnswers : Nat → List Row → List (RowsAnswer Row)
  | _, [] => [.bool false]
  | position, row :: rows =>
      [.bool true, .row row, .long position, .null] ++ foreachAnswers (position + 1) rows

theorem responses_foreachCalls (before rows : List Row) :
    responses (privateCall (before ++ rows)) before.length (foreachCalls rows.length) =
      foreachAnswers before.length rows := by
  induction rows generalizing before with
  | nil => simp [foreachCalls, foreachAnswers, responses, privateCall, rowsCall]
  | cons row rows ih =>
      have rest := ih (before ++ [row])
      rw [List.append_assoc, List.singleton_append, List.length_append, List.length_singleton]
        at rest
      rw [List.length_cons, foreachCalls, foreachAnswers, ← rest, responses_append]
      simp [responses, stateAfter, privateCall, rowsCall, currentData, moveForward]

end Iteration

def twoRows : Option Nat → CassResult Nat (List Nat) :=
  fun _ => { content := [10, 20], pagingState := none }

/-- One object is moved on after the other was rewound; and an object is asked for its first row
after it was moved on. -/
theorem shared_position_moves :
    (∃ last : Iteration Nat (List Nat) Nat,
      Run (Iteration.step twoRows .ok) (fun _ _ => True) { query := { statement := none } }
        [.query .executeAsync, .query (.get 0 .ready), .query (.get 0 .ready), .rows 1 .rewind,
          .rows 0 .next, .rows 1 .current] last ∧
      last.callsOn 1 = [.rewind, .current] ∧ last.answersOn 1 = [.null, .row 20] ∧
      ¬last.Independent) ∧
    ∃ last : Iteration Nat (List Nat) Nat,
      Run (Iteration.step twoRows .ok) (fun _ _ => True) { query := { statement := none } }
        [.query (.execute .ready), .rows 0 .next, .rows 0 .first] last ∧
      last.answersOn 0 = [.null, .row 20] ∧ ¬last.Independent := by
  refine ⟨⟨_, .of_foldlM (fun _ _ _ => trivial) rfl, rfl, rfl, ?_⟩,
    ⟨_, .of_foldlM (fun _ _ _ => trivial) rfl, rfl, ?_⟩⟩
  · intro independent
    have same := independent 1 [10, 20] rfl
    revert same
    decide
  · intro independent
    have same := independent 0 [10, 20] rfl
    revert same
    decide

/-- Every object answers as its own calls alone determine. A loop visits each row once and in
order, whatever was done to the object before and to the others meanwhile. -/
theorem rows_iterate_independently (start : Option Token) (calls : List IterationCall)
    (last : Iteration Token Content Row)
    (run : Run (Iteration.step server decode) Iteration.Undisturbed
      { query := { statement := start } } calls last) :
    last.Independent ∧
      ∀ self page history, last.query.pages[self]? = some page →
        last.callsOn self = history ++ .rewind :: Iteration.foreachCalls page.length →
        last.answersOn self = Iteration.privateAnswers page history ++
          .null :: Iteration.foreachAnswers 0 page := by
  have independent := (Iteration.settled_of_run rfl run).answered
  refine ⟨independent, ?_⟩
  intro self page history pageAt made
  rw [independent self page pageAt, made, Iteration.privateAnswers, responses_append]
  exact congrArg (fun answers => Iteration.privateAnswers page history ++ .null :: answers)
    (Iteration.responses_foreachCalls [] page)

/-- Two objects with one array, iterated over one after the other. -/
theorem one_after_the_other :
    ∃ last : Iteration Nat (List Nat) Nat,
      Run (Iteration.step twoRows .ok) Iteration.Undisturbed { query := { statement := none } }
        ([.query .executeAsync, .query (.get 0 .ready), .query (.get 0 .ready), .rows 0 .rewind] ++
          (Iteration.foreachCalls 2).map (.rows 0) ++ [.rows 1 .rewind] ++
          (Iteration.foreachCalls 2).map (.rows 1)) last ∧
      last.answersOn 1 = [.null, .bool true, .row 10, .long 0, .null, .bool true, .row 20, .long 1,
        .null, .bool false] := by
  obtain ⟨last, run, page, made⟩ : ∃ last : Iteration Nat (List Nat) Nat,
      Run (Iteration.step twoRows .ok) Iteration.Undisturbed { query := { statement := none } }
        ([.query .executeAsync, .query (.get 0 .ready), .query (.get 0 .ready), .rows 0 .rewind] ++
          (Iteration.foreachCalls 2).map (.rows 0) ++ [.rows 1 .rewind] ++
          (Iteration.foreachCalls 2).map (.rows 1)) last ∧
      last.query.pages[1]? = some [10, 20] ∧
      last.callsOn 1 = [] ++ .rewind :: Iteration.foreachCalls 2 := by
    exact ⟨_, .of_checked rfl, rfl, rfl⟩
  have answers := (rows_iterate_independently none _ last run).2 1 [10, 20] [] page made
  exact ⟨last, run, answers⟩

end PhpDriver
