import Mathlib.Data.List.Chain
import PhpDriver.Data.Labelled
import PhpDriver.Data.Run
import PhpDriver.Rows.Object

namespace PhpDriver

open Data

/-! Every `Rows` object stands for one page of its query. The page number is a label:
the code does not keep it, but nothing it does to an object changes it. -/

variable (server : Option Token → CassResult Token Content)
variable (decode : Content → Except Exception (List Row))
variable (start : Option Token)

/-- The pages of a query: each is the answer to the paging state of the one before. -/
def pageAt : Nat → Option (CassResult Token Content)
  | 0 => some (server start)
  | number + 1 =>
      (pageAt number).bind fun page => page.pagingState.map fun token => server (some token)

def pageRows (number : Nat) : List Row :=
  match pageAt server start number with
  | none => []
  | some page =>
      match decode page.content with
      | .ok rows => rows
      | .error _ => []

/-! Successors, as a program sees them in the replies it got. -/

def First (log : CallLog) (handle : Nat) : Prop :=
  (∃ outcome, (.execute outcome, .rows handle) ∈ log) ∨
    ∃ future outcome, (.executeAsync, .future future) ∈ log ∧
      (.get future outcome, .rows handle) ∈ log

def Successor (log : CallLog) (handle next : Nat) : Prop :=
  (∃ outcome, (.nextPage handle outcome, .rows next) ∈ log) ∨
    ∃ future outcome, (.nextPageAsync handle, .future future) ∈ log ∧
      (.get future outcome, .rows next) ∈ log

inductive IsPage (log : CallLog) : Nat → Nat → Prop
  | first {handle : Nat} (first : First log handle) : IsPage log handle 0
  | next {handle next number : Nat} (page : IsPage log handle number)
      (successor : Successor log handle next) : IsPage log next (number + 1)

inductive FutureLabel where
  | request (page : Nat)
  | value (page : Nat)

def FutureLabel.page : FutureLabel → Nat
  | .request page => page
  | .value page => page

structure Labels where
  rows : List Nat
  futures : List FutureLabel

structure Labels.Extends (labels more : Labels) : Prop where
  rows : ∀ {handle number : Nat}, labels.rows[handle]? = some number →
    more.rows[handle]? = some number
  futures : ∀ {handle : Nat} {label : FutureLabel}, labels.futures[handle]? = some label →
    more.futures[handle]? = some label

structure RowsAgree (futures : List FutureLabel) (number : Nat)
    (object : RowsObject Token Content Row) : Prop where
  page : ∃ page, pageAt server start number = some page ∧
    decode page.content = .ok object.rows ∧
    object.result = if page.hasMorePages then some page else none
  nextResult : ∀ page, object.nextResult = some page →
    pageAt server start (number + 1) = some page
  nextRows : ∀ rows, object.nextRows = some rows →
    ∃ page, object.nextResult = some page ∧ decode page.content = .ok rows
  future : ∀ handle, object.futureNextPage = some handle →
    (pageAt server start (number + 1)).isSome ∧
      (futures[handle]? = some (.request (number + 1)) ∨
        futures[handle]? = some (.value (number + 1)) ∧ object.nextResult.isSome)

def FutureAgrees (rows : List Nat) :
    FutureLabel → FutureObject Token Content Row → Prop
  | .request number, .rows future =>
      pageAt server start number = some (server future.request) ∧
        (∀ result, future.result = some result → result = server future.request) ∧
        ∀ rows, future.rows = some rows → decode (server future.request).content = .ok rows
  | .value number, .value (some handle) => rows[handle]? = some number
  | .value number, .value none =>
      ∀ page, pageAt server start number = some page →
        ∃ exception, decode page.content = .error exception
  | _, _ => False

structure Consistent (labels : Labels) (query : Query Token Content Row) : Prop where
  rows : Labelled (RowsAgree server decode start labels.futures) labels.rows query.rows
  futures : Labelled (FutureAgrees server decode start labels.rows) labels.futures query.futures
  unstarted : query.rows = [] → query.futures = [] → query.statement = start

inductive PageReply (rows : List Nat) (outcome : WaitOutcome) (number : Nat) : Reply → Prop
  | page {handle : Nat} (labelAt : rows[handle]? = some number) :
      PageReply rows outcome number (.rows handle)
  | past (missing : pageAt server start number = none) : PageReply rows outcome number .null
  | thrown {page : CassResult Token Content} {exception : Exception}
      (at_ : pageAt server start number = some page)
      (why : outcome.result = .error exception ∨ decode page.content = .error exception) :
      PageReply rows outcome number (.exception exception)

variable {server decode start}

theorem Labels.Extends.refl (labels : Labels) : labels.Extends labels :=
  ⟨id, id⟩

theorem Labels.Extends.addRows (labels : Labels) (number : Nat) :
    labels.Extends { labels with rows := labels.rows ++ [number] } :=
  ⟨getElem?_of_append_left, id⟩

theorem Labels.Extends.addFuture (labels : Labels) (label : FutureLabel) :
    labels.Extends { labels with futures := labels.futures ++ [label] } :=
  ⟨id, getElem?_of_append_left⟩

theorem Labels.Extends.trans {first second third : Labels} (left : first.Extends second)
    (right : second.Extends third) : first.Extends third :=
  ⟨right.rows ∘ left.rows, right.futures ∘ left.futures⟩

theorem pageAt_succ {number : Nat} {page : CassResult Token Content}
    (at_ : pageAt server start number = some page) :
    pageAt server start (number + 1) =
      if page.hasMorePages then some (server page.pagingState) else none := by
  rw [pageAt, at_, CassResult.hasMorePages, Option.bind_some]
  cases page.pagingState <;> rfl

section

variable {labels : Labels} {futures more : List FutureLabel} {number : Nat}
variable {object : RowsObject Token Content Row}

theorem RowsAgree.result (agree : RowsAgree server decode start futures number object) :
    pageAt server start (number + 1) =
      object.result.map fun page => server page.pagingState := by
  obtain ⟨page, at_, _, result⟩ := agree.page
  rw [pageAt_succ at_, result]
  split <;> rfl

theorem RowsAgree.extend (agree : RowsAgree server decode start futures number object) :
    RowsAgree server decode start (futures ++ more) number object := by
  refine { agree with future := ?_ }
  intro handle kept
  obtain ⟨hasNext, request | ⟨value, fetched⟩⟩ := agree.future handle kept
  · exact ⟨hasNext, Or.inl (getElem?_of_append_left request)⟩
  · exact ⟨hasNext, Or.inr ⟨getElem?_of_append_left value, fetched⟩⟩

theorem FutureAgrees.extend {rows new : List Nat} {label : FutureLabel}
    {object : FutureObject Token Content Row}
    (agree : FutureAgrees server decode start rows label object) :
    FutureAgrees server decode start (rows ++ new) label object := by
  cases label with
  | request number => cases object <;> exact agree
  | value number =>
      cases object with
      | rows future => exact agree
      | value value =>
          cases value with
          | none => exact agree
          | some handle => exact getElem?_of_append_left agree

theorem RowsAgree.ofPage {rows : List Row} {page : CassResult Token Content}
    (at_ : pageAt server start number = some page)
    (decoded : decode page.content = .ok rows) :
    RowsAgree server decode start futures number (.ofPage rows page) where
  page := ⟨page, at_, decoded, rfl⟩
  nextResult := by simp [RowsObject.ofPage]
  nextRows := by simp [RowsObject.ofPage]
  future := by simp [RowsObject.ofPage]

end

namespace Consistent

variable {labels : Labels} {query : Query Token Content Row} {self number : Nat}
variable {object : RowsObject Token Content Row}

theorem rows_ne_nil (consistent : Consistent server decode start labels query)
    (labelAt : labels.rows[self]? = some number) : query.rows ≠ [] := by
  intro empty
  obtain ⟨_, objectAt, _⟩ := consistent.rows.object labelAt
  rw [empty] at objectAt
  cases objectAt

theorem setStatement (consistent : Consistent server decode start labels query)
    (labelAt : labels.rows[self]? = some number) (statement : Option Token) :
    Consistent server decode start labels { query with statement } where
  rows := consistent.rows
  futures := consistent.futures
  unstarted := fun empty => absurd empty (consistent.rows_ne_nil labelAt)

theorem setRows (consistent : Consistent server decode start labels query)
    (labelAt : labels.rows[self]? = some number)
    (agree : RowsAgree server decode start labels.futures number object) :
    Consistent server decode start labels
      { query with rows := query.rows.set self object } where
  rows := consistent.rows.set labelAt agree
  futures := consistent.futures
  unstarted := by
    intro empty
    exact absurd (by simpa using empty) (consistent.rows_ne_nil labelAt)

theorem addRows (consistent : Consistent server decode start labels query)
    (agree : RowsAgree server decode start labels.futures number object) :
    Consistent server decode start { labels with rows := labels.rows ++ [number] }
      { query with rows := query.rows ++ [object] } where
  rows := consistent.rows.append agree
  futures := consistent.futures.mono fun _ _ => FutureAgrees.extend
  unstarted := by simp

theorem setFuture (consistent : Consistent server decode start labels query)
    {label : FutureLabel} (labelAt : labels.futures[self]? = some label)
    (object : FutureObject Token Content Row)
    (agree : FutureAgrees server decode start labels.rows label object) :
    Consistent server decode start labels
      { query with futures := query.futures.set self object } where
  rows := consistent.rows
  futures := consistent.futures.set labelAt agree
  unstarted := by
    intro _ empty
    obtain ⟨_, objectAt, _⟩ := consistent.futures.object labelAt
    rw [show query.futures = [] by simpa using empty] at objectAt
    cases objectAt

theorem addFuture (consistent : Consistent server decode start labels query)
    (label : FutureLabel) (object : FutureObject Token Content Row)
    (agree : FutureAgrees server decode start labels.rows label object) :
    Consistent server decode start { labels with futures := labels.futures ++ [label] }
      { query with futures := query.futures ++ [object] } where
  rows := consistent.rows.mono fun _ _ => RowsAgree.extend
  futures := consistent.futures.append agree
  unstarted := by simp

end Consistent

section

variable {labels : Labels} {query : Query Token Content Row} {self number : Nat}
variable {outcome : WaitOutcome}

theorem RowsAgree.fetched {futures : List FutureLabel} {object : RowsObject Token Content Row}
    {page : CassResult Token Content}
    (agree : RowsAgree server decode start futures number object)
    (missing : object.nextResult = none)
    (at_ : pageAt server start (number + 1) = some page) :
    RowsAgree server decode start futures number { object with nextResult := some page } where
  page := agree.page
  nextResult := fun _ same => same ▸ at_
  nextRows := by
    intro rows cached
    obtain ⟨_, present, _⟩ := agree.nextRows rows cached
    rw [missing] at present
    cases present
  future := by
    intro handle kept
    obtain ⟨hasNext, request | ⟨value, _⟩⟩ := agree.future handle kept
    · exact ⟨hasNext, Or.inl request⟩
    · exact ⟨hasNext, Or.inr ⟨value, rfl⟩⟩

theorem RowsAgree.cached {futures : List FutureLabel} {object : RowsObject Token Content Row}
    {page : CassResult Token Content} {rows : List Row}
    (agree : RowsAgree server decode start futures number object)
    (fetched : object.nextResult = some page) (decoded : decode page.content = .ok rows) :
    RowsAgree server decode start futures number { object with nextRows := some rows } where
  page := agree.page
  nextResult := agree.nextResult
  nextRows := by
    rintro _ same
    obtain rfl := Option.some.inj same
    exact ⟨page, fetched, decoded⟩
  future := agree.future

theorem RowsAgree.pending {futures : List FutureLabel} {object : RowsObject Token Content Row}
    (agree : RowsAgree server decode start futures number object)
    (hasNext : (pageAt server start (number + 1)).isSome) {label : FutureLabel}
    (label_eq : label = .request (number + 1) ∨
      label = .value (number + 1) ∧ object.nextResult.isSome) :
    RowsAgree server decode start (futures ++ [label]) number
      { object with futureNextPage := some futures.length } where
  page := agree.page
  nextResult := agree.nextResult
  nextRows := agree.nextRows
  future := by
    rintro _ same
    obtain rfl := Option.some.inj same
    refine ⟨hasNext, ?_⟩
    rw [List.getElem?_concat_length, Option.some.injEq, Option.some.injEq]
    exact label_eq

theorem RowsAgree.rowsCreate_eq {futures : List FutureLabel}
    {object : RowsObject Token Content Row} {page : CassResult Token Content}
    (agree : RowsAgree server decode start futures number object)
    (objectAt : query.rows[self]? = some object) (fetched : object.nextResult = some page) :
    query.rowsCreate decode self = some (match decode page.content with
      | .error exception => (query, .error exception)
      | .ok rows =>
          ({ query with
              rows := query.rows.set self { object with nextRows := some rows } ++
                [.ofPage rows page] },
            .ok query.rows.length)) := by
  simp only [Query.rowsCreate, objectAt, fetched, Option.bind_eq_bind, Option.bind_some]
  cases cached : object.nextRows with
  | none =>
      simp only [Option.elim_none]
      cases decode page.content <;> rfl
  | some rows =>
      obtain ⟨_, same, decoded⟩ := agree.nextRows rows cached
      obtain rfl := Option.some.inj (fetched.symm.trans same)
      simp only [Option.elim_some, decoded]

theorem futureRowsGetResult_eq {future : FutureRows Token Content Row}
    (kept : ∀ result, future.result = some result → result = server future.request) :
    Query.futureRowsGetResult server outcome future =
        .ok (server future.request) ∨
      ∃ exception, outcome.result = .error exception ∧
        Query.futureRowsGetResult server outcome future = .error exception := by
  rw [Query.futureRowsGetResult]
  cases present : future.result with
  | some result => exact Or.inl (by rw [kept result present])
  | none =>
      cases outcome.result with
      | ok => exact Or.inl rfl
      | error exception => exact Or.inr ⟨exception, rfl, rfl⟩

/-- Before the new object: the next result is there, or the page is the last one, or the
wait has thrown. -/
theorem fetchNextResult_spec (consistent : Consistent server decode start labels query)
    (labelAt : labels.rows[self]? = some number) (outcome : WaitOutcome) :
    ∃ after fetched, query.fetchNextResult server self outcome = some (after, fetched) ∧
      Consistent server decode start labels after ∧
      ((fetched = .ok () ∧ ∃ object page, after.rows[self]? = some object ∧
          object.nextResult = some page) ∨
        (fetched = .error .null ∧ pageAt server start (number + 1) = none) ∨
        ∃ exception, fetched = .error (.exception exception) ∧
          outcome.result = .error exception ∧
          (pageAt server start (number + 1)).isSome) := by
  obtain ⟨object, objectAt, agree⟩ := consistent.rows.object labelAt
  have inside := (List.getElem?_eq_some_iff.mp objectAt).1
  simp only [Query.fetchNextResult, objectAt, Option.bind_eq_bind, Option.bind_some]
  cases fetched : object.nextResult with
  | some page =>
      exact ⟨query, .ok (), rfl, consistent, Or.inl ⟨rfl, object, page, objectAt, fetched⟩⟩
  | none =>
      simp only [Option.isSome_none, Bool.false_eq_true, if_false]
      cases pending : object.futureNextPage with
      | some handle =>
          obtain ⟨hasNext, requested | ⟨_, absent⟩⟩ := agree.future handle pending
          · obtain ⟨future, futureAt, futureAgree⟩ := consistent.futures.object requested
            cases future with
            | value value => exact futureAgree.elim
            | rows future =>
                obtain ⟨at_, kept, decoded⟩ := futureAgree
                simp only [futureAt, Option.bind_some]
                obtain got | ⟨exception, thrown, got⟩ :=
                  @futureRowsGetResult_eq _ _ _ server outcome future kept
                · refine ⟨_, .ok (), by rw [got], ?_,
                    Or.inl ⟨rfl, _, server future.request, List.getElem?_set_self inside, rfl⟩⟩
                  have stored := (consistent.setRows labelAt (agree.fetched fetched at_)).setFuture
                    requested (.rows { future with result := some (server future.request) })
                    ⟨at_, fun _ same => (Option.some.inj same).symm, decoded⟩
                  simpa only [pending] using stored
                · exact ⟨query, _, by rw [got], consistent,
                    Or.inr (Or.inr ⟨exception, rfl, thrown, hasNext⟩)⟩
          · rw [fetched] at absent
            cases absent
      | none =>
          have next := agree.result
          cases result : object.result with
          | none =>
              rw [result] at next
              exact ⟨query, _, rfl, consistent, Or.inr (Or.inl ⟨rfl, next⟩)⟩
          | some page =>
              rw [result, Option.map_some] at next
              cases waited : outcome.result with
              | error exception =>
                  exact ⟨_, _, rfl, consistent.setStatement labelAt page.pagingState,
                    Or.inr (Or.inr ⟨exception, rfl, rfl, by simp [next]⟩)⟩
              | ok =>
                  refine ⟨_, .ok (), rfl, ?_, Or.inl ⟨rfl, _, server page.pagingState,
                    List.getElem?_set_self inside, rfl⟩⟩
                  have stored := (consistent.setRows labelAt (agree.fetched fetched next)).setStatement
                    labelAt page.pagingState
                  simpa only [pending, result] using stored

theorem isLastPage_eq (consistent : Consistent server decode start labels query)
    (labelAt : labels.rows[self]? = some number) :
    query.isLastPage self = some (pageAt server start (number + 1)).isNone := by
  obtain ⟨object, objectAt, agree⟩ := consistent.rows.object labelAt
  have next := agree.result
  simp only [Query.isLastPage, objectAt, Option.bind_eq_bind, Option.bind_some]
  cases result : object.result with
  | some page => simp [next, result]
  | none =>
      rw [result, Option.map_none] at next
      have notFetched : object.nextResult = none := by
        cases fetched : object.nextResult with
        | none => rfl
        | some page =>
            have at_ := agree.nextResult page fetched
            rw [next] at at_
            cases at_
      have notCached : object.nextRows = none := by
        cases cached : object.nextRows with
        | none => rfl
        | some rows =>
            obtain ⟨_, fetched, _⟩ := agree.nextRows rows cached
            rw [notFetched] at fetched
            cases fetched
      have notPending : object.futureNextPage = none := by
        cases pending : object.futureNextPage with
        | none => rfl
        | some handle =>
            have hasNext := (agree.future handle pending).1
            rw [next] at hasNext
            cases hasNext
      simp [notCached, notPending, next]

/-- The object made from a fetched next page is labelled with that page. -/
theorem Consistent.addNextPage (consistent : Consistent server decode start labels query)
    (labelAt : labels.rows[self]? = some number) {object : RowsObject Token Content Row}
    (objectAt : query.rows[self]? = some object) {page : CassResult Token Content}
    (fetched : object.nextResult = some page) {rows : List Row}
    (decoded : decode page.content = .ok rows) :
    Consistent server decode start { labels with rows := labels.rows ++ [number + 1] }
      { query with
        rows := query.rows.set self { object with nextRows := some rows } ++
          [.ofPage rows page] } := by
  have agree := consistent.rows.holds _ _ _ labelAt objectAt
  exact (consistent.setRows labelAt (agree.cached fetched decoded)).addRows
    (.ofPage (agree.nextResult page fetched) decoded)

theorem nextPage_spec (consistent : Consistent server decode start labels query)
    (labelAt : labels.rows[self]? = some number) (outcome : WaitOutcome) :
    ∃ after reply more, query.nextPage server decode self outcome = some (after, reply) ∧
      labels.Extends more ∧ Consistent server decode start more after ∧
      PageReply server decode start more.rows outcome (number + 1) reply := by
  obtain ⟨after, fetched, run, still, ⟨rfl, object, page, objectAt, present⟩ | ⟨rfl, missing⟩ |
    ⟨exception, rfl, thrown, hasNext⟩⟩ := fetchNextResult_spec consistent labelAt outcome
  · have agree := still.rows.holds _ _ _ labelAt objectAt
    simp only [Query.nextPage, run, Option.bind_eq_bind, Option.bind_some,
      agree.rowsCreate_eq objectAt present]
    cases decoded : decode page.content with
    | error exception =>
        exact ⟨after, _, labels, rfl, .refl labels, still,
          .thrown (agree.nextResult page present) (Or.inr decoded)⟩
    | ok rows =>
        refine ⟨_, _, _, rfl, .addRows labels (number + 1),
          still.addNextPage labelAt objectAt present decoded, .page ?_⟩
        rw [← still.rows.length, List.getElem?_concat_length]
  · refine ⟨after, .null, labels, ?_, .refl labels, still, .past missing⟩
    simp only [Query.nextPage, run, Option.bind_eq_bind, Option.bind_some]
  · obtain ⟨page, at_⟩ := Option.isSome_iff_exists.mp hasNext
    refine ⟨after, _, labels, ?_, .refl labels, still, .thrown at_ (Or.inl thrown)⟩
    simp only [Query.nextPage, run, Option.bind_eq_bind, Option.bind_some]

theorem nextPageAsync_spec (consistent : Consistent server decode start labels query)
    (labelAt : labels.rows[self]? = some number) :
    ∃ after reply more, query.nextPageAsync decode self = some (after, reply) ∧
      labels.Extends more ∧ Consistent server decode start more after ∧
      ((∃ handle label, reply = .future handle ∧ more.futures[handle]? = some label ∧
          label.page = number + 1) ∨
        ∃ exception page, reply = .exception exception ∧
          pageAt server start (number + 1) = some page ∧
          decode page.content = .error exception) := by
  obtain ⟨object, objectAt, agree⟩ := consistent.rows.object labelAt
  have inside := (List.getElem?_eq_some_iff.mp objectAt).1
  have length := consistent.futures.length
  have newest (label : FutureLabel) :
      (labels.futures ++ [label])[query.futures.length]? = some label := by
    rw [← length, List.getElem?_concat_length]
  simp only [Query.nextPageAsync, objectAt, Option.bind_eq_bind, Option.bind_some]
  cases pending : object.futureNextPage with
  | some handle =>
      obtain ⟨_, requested | ⟨value, _⟩⟩ := agree.future handle pending
      · exact ⟨query, _, labels, rfl, .refl labels, consistent,
          Or.inl ⟨handle, _, rfl, requested, rfl⟩⟩
      · exact ⟨query, _, labels, rfl, .refl labels, consistent,
          Or.inl ⟨handle, _, rfl, value, rfl⟩⟩
  | none =>
      simp only
      by_cases isFetched : object.nextResult.isSome
      · obtain ⟨page, fetched⟩ := Option.isSome_iff_exists.mp isFetched
        have at_ := agree.nextResult page fetched
        have agreePending := agree.pending (by simp [at_]) (Or.inr ⟨rfl, isFetched⟩)
        rw [length] at agreePending
        rw [if_pos isFetched, agreePending.rowsCreate_eq (List.getElem?_set_self inside) fetched]
        cases decoded : decode page.content with
        | error exception =>
            refine ⟨_, _, _, rfl, .addFuture labels (.value (number + 1)), ?_,
              Or.inr ⟨exception, page, rfl, at_, decoded⟩⟩
            have stored := consistent.addFuture (.value (number + 1)) (.value none) (by
              rintro other otherAt
              obtain rfl := Option.some.inj (at_.symm.trans otherAt)
              exact ⟨exception, decoded⟩)
            exact stored.setRows labelAt agreePending
        | ok rows =>
            have created := (consistent.addNextPage labelAt objectAt fetched decoded).addFuture
              (.value (number + 1)) (.value (some query.rows.length)) (by
                rw [FutureAgrees, ← consistent.rows.length, List.getElem?_concat_length])
            have stored := created.setRows (getElem?_of_append_left labelAt)
              (agreePending.cached fetched decoded)
            refine ⟨_, _, _, rfl,
              (Labels.Extends.addRows labels (number + 1)).trans
                (.addFuture _ (.value (number + 1))), ?_, Or.inl ⟨_, .value (number + 1), rfl, newest _, rfl⟩⟩
            simpa [List.set_append_left, inside] using stored
      · rw [if_neg isFetched]
        have next := agree.result
        cases result : object.result with
        | none =>
            rw [result, Option.map_none] at next
            refine ⟨_, _, _, rfl, .addFuture labels (.value (number + 1)),
              consistent.addFuture _ _ ?_, Or.inl ⟨_, .value (number + 1), rfl, newest _, rfl⟩⟩
            rintro page at_
            rw [next] at at_
            cases at_
        | some page =>
            rw [result, Option.map_some] at next
            have agreePending := agree.pending (by simp [next]) (Or.inl rfl)
            rw [length] at agreePending
            have requested := consistent.addFuture (.request (number + 1))
              (.rows { request := page.pagingState }) ⟨next, by simp, by simp⟩
            have stored := (requested.setRows labelAt agreePending).setStatement labelAt
              page.pagingState
            refine ⟨_, _, _, rfl, .addFuture labels (.request (number + 1)), ?_,
              Or.inl ⟨_, .request (number + 1), rfl, newest _, rfl⟩⟩
            simpa only [result] using stored

theorem get_spec (consistent : Consistent server decode start labels query)
    {label : FutureLabel} (labelAt : labels.futures[self]? = some label)
    (outcome : WaitOutcome) :
    ∃ after reply more, query.get server decode self outcome = some (after, reply) ∧
      labels.Extends more ∧ Consistent server decode start more after ∧
      (PageReply server decode start more.rows outcome label.page reply ∨
        reply = .null ∧ ∀ page, pageAt server start label.page = some page →
          ∃ exception, decode page.content = .error exception) := by
  obtain ⟨object, objectAt, agree⟩ := consistent.futures.object labelAt
  simp only [Query.get, objectAt, Option.bind_eq_bind, Option.bind_some]
  cases label with
  | value number =>
      cases object with
      | rows future => exact agree.elim
      | value value =>
          cases value with
          | none => exact ⟨query, _, labels, rfl, .refl labels, consistent, Or.inr ⟨rfl, agree⟩⟩
          | some handle =>
              exact ⟨query, _, labels, rfl, .refl labels, consistent, Or.inl (.page agree)⟩
  | request number =>
      cases object with
      | value value => exact agree.elim
      | rows future =>
          obtain ⟨at_, kept, decodedRows⟩ := agree
          obtain got | ⟨exception, thrown, got⟩ :=
            @futureRowsGetResult_eq _ _ _ server outcome future kept
          · have cachedEq : future.rows.elim (decode (server future.request).content) .ok =
                decode (server future.request).content := by
              cases cached : future.rows with
              | none => rfl
              | some rows => exact (decodedRows rows cached).symm
            have keptNow (result : CassResult Token Content)
                (same : some (server future.request) = some result) :
                result = server future.request :=
              (Option.some.inj same).symm
            simp only [got, cachedEq]
            cases decoded : decode (server future.request).content with
            | error exception =>
                have stored := consistent.setFuture labelAt
                  (.rows { future with result := some (server future.request) })
                  ⟨at_, keptNow, decodedRows⟩
                exact ⟨_, _, labels, rfl, .refl labels, stored,
                  Or.inl (.thrown at_ (Or.inr decoded))⟩
            | ok rows =>
                have stored := consistent.setFuture labelAt
                  (.rows { future with result := some (server future.request), rows := some rows })
                  ⟨at_, keptNow, fun _ same => Option.some.inj same ▸ decoded⟩
                refine ⟨_, _, _, rfl, .addRows labels number,
                  stored.addRows (.ofPage at_ decoded), Or.inl (.page ?_)⟩
                rw [← consistent.rows.length, FutureLabel.page, List.getElem?_concat_length]
          · simp only [got]
            exact ⟨query, _, labels, rfl, .refl labels, consistent,
              Or.inl (.thrown at_ (Or.inl thrown))⟩

theorem execute_spec (consistent : Consistent server decode start labels query)
    (noRows : query.rows = []) (noFutures : query.futures = []) (outcome : WaitOutcome) :
    ∃ more, labels.Extends more ∧
      Consistent server decode start more (query.execute server decode outcome).1 ∧
      PageReply server decode start more.rows outcome 0
        (query.execute server decode outcome).2 := by
  have first : pageAt server start 0 = some (server query.statement) := by
    rw [consistent.unstarted noRows noFutures, pageAt]
  cases waited : outcome.result with
  | error exception =>
      simp only [Query.execute, waited]
      exact ⟨labels, .refl labels, consistent, .thrown first (Or.inl waited)⟩
  | ok =>
      simp only [Query.execute, waited]
      cases decoded : decode (server query.statement).content with
      | error exception =>
          exact ⟨labels, .refl labels, consistent, .thrown first (Or.inr decoded)⟩
      | ok rows =>
          refine ⟨_, .addRows labels 0, consistent.addRows (.ofPage first decoded), .page ?_⟩
          rw [← consistent.rows.length, List.getElem?_concat_length]

theorem executeAsync_spec (consistent : Consistent server decode start labels query)
    (noRows : query.rows = []) (noFutures : query.futures = []) :
    ∃ more, labels.Extends more ∧
      Consistent server decode start more query.executeAsync.1 ∧
      ∃ handle label, query.executeAsync.2 = .future handle ∧
        more.futures[handle]? = some label ∧ label.page = 0 := by
  have first : pageAt server start 0 = some (server query.statement) := by
    rw [consistent.unstarted noRows noFutures, pageAt]
  refine ⟨_, .addFuture labels (.request 0), consistent.addFuture _ _ ⟨first, by simp, by simp⟩,
    query.futures.length, .request 0, rfl, ?_, rfl⟩
  rw [← consistent.futures.length, List.getElem?_concat_length]

end

def Justified (labels : Labels) : Call → Reply → Prop
  | .execute _, .rows handle => labels.rows[handle]? = some 0
  | .executeAsync, .future handle =>
      ∃ label, labels.futures[handle]? = some label ∧ label.page = 0
  | .nextPage self _, .rows handle =>
      ∃ number, labels.rows[self]? = some number ∧ labels.rows[handle]? = some (number + 1)
  | .nextPageAsync self, .future handle =>
      ∃ number label, labels.rows[self]? = some number ∧
        labels.futures[handle]? = some label ∧ label.page = number + 1
  | .get self _, .rows handle =>
      ∃ label, labels.futures[self]? = some label ∧ labels.rows[handle]? = some label.page
  | _, _ => True

theorem Justified.extend {labels more : Labels} (extends_ : labels.Extends more)
    {call : Call} {reply : Reply} (justified : Justified labels call reply) :
    Justified more call reply := by
  cases call <;> cases reply <;> try trivial
  case execute.rows => exact extends_.rows justified
  case executeAsync.future =>
    obtain ⟨label, labelAt, page⟩ := justified
    exact ⟨label, extends_.futures labelAt, page⟩
  case nextPage.rows =>
    obtain ⟨number, selfAt, nextAt⟩ := justified
    exact ⟨number, extends_.rows selfAt, extends_.rows nextAt⟩
  case nextPageAsync.future =>
    obtain ⟨number, label, selfAt, labelAt, page⟩ := justified
    exact ⟨number, label, extends_.rows selfAt, extends_.futures labelAt, page⟩
  case get.rows =>
    obtain ⟨label, selfAt, nextAt⟩ := justified
    exact ⟨label, extends_.futures selfAt, extends_.rows nextAt⟩

section

variable {labels : Labels} {query after : Query Token Content Row}

/-- One call: labels are only added, and the reply is the one its labels ask for. -/
theorem queryCall_spec (consistent : Consistent server decode start labels query)
    {call : Call} {reply : Reply}
    (taken : queryCall server decode query call = some (after, reply)) :
    ∃ more, labels.Extends more ∧ Consistent server decode start more after ∧
      Justified more call reply := by
  cases call with
  | execute outcome =>
      simp only [queryCall, Bool.and_eq_true, List.isEmpty_iff, Option.ite_none_right_eq_some,
        Option.some.injEq] at taken
      obtain ⟨⟨noRows, noFutures⟩, run⟩ := taken
      obtain ⟨more, extends_, still, answer⟩ :=
        execute_spec consistent noRows noFutures outcome
      rw [run] at still answer
      refine ⟨more, extends_, still, ?_⟩
      cases answer with
      | page labelAt => exact labelAt
      | past missing => trivial
      | thrown at_ why => trivial
  | executeAsync =>
      simp only [queryCall, Bool.and_eq_true, List.isEmpty_iff, Option.ite_none_right_eq_some,
        Option.some.injEq] at taken
      obtain ⟨⟨noRows, noFutures⟩, run⟩ := taken
      obtain ⟨more, extends_, still, handle, label, replied, labelAt, page⟩ :=
        executeAsync_spec consistent noRows noFutures
      rw [run] at still replied
      subst replied
      exact ⟨more, extends_, still, label, labelAt, page⟩
  | isLastPage self =>
      obtain ⟨value, _, same⟩ := Option.map_eq_some_iff.mp taken
      cases same
      exact ⟨labels, .refl labels, consistent, trivial⟩
  | nextPage self outcome =>
      have known : ∃ object, query.rows[self]? = some object := by
        cases objectAt : query.rows[self]? with
        | none => simp [queryCall, Query.nextPage, Query.fetchNextResult, objectAt] at taken
        | some object => exact ⟨object, rfl⟩
      obtain ⟨object, objectAt⟩ := known
      obtain ⟨number, labelAt, _⟩ := consistent.rows.label objectAt
      obtain ⟨_, _, more, run, extends_, still, answer⟩ :=
        nextPage_spec consistent labelAt outcome
      cases run.symm.trans taken
      refine ⟨more, extends_, still, ?_⟩
      cases answer with
      | page nextAt => exact ⟨number, extends_.rows labelAt, nextAt⟩
      | past missing => trivial
      | thrown at_ why => trivial
  | nextPageAsync self =>
      have known : ∃ object, query.rows[self]? = some object := by
        cases objectAt : query.rows[self]? with
        | none => simp [queryCall, Query.nextPageAsync, objectAt] at taken
        | some object => exact ⟨object, rfl⟩
      obtain ⟨object, objectAt⟩ := known
      obtain ⟨number, labelAt, _⟩ := consistent.rows.label objectAt
      obtain ⟨_, _, more, run, extends_, still, ⟨handle, label, rfl, nextAt, page⟩ |
        ⟨exception, page, rfl, _, _⟩⟩ := nextPageAsync_spec consistent labelAt
      · cases run.symm.trans taken
        exact ⟨more, extends_, still, number, label, extends_.rows labelAt, nextAt, page⟩
      · cases run.symm.trans taken
        exact ⟨more, extends_, still, trivial⟩
  | get self outcome =>
      have known : ∃ object, query.futures[self]? = some object := by
        cases objectAt : query.futures[self]? with
        | none => simp [queryCall, Query.get, objectAt] at taken
        | some object => exact ⟨object, rfl⟩
      obtain ⟨object, objectAt⟩ := known
      obtain ⟨label, labelAt, _⟩ := consistent.futures.label objectAt
      obtain ⟨_, _, more, run, extends_, still, answer⟩ := get_spec consistent labelAt outcome
      cases run.symm.trans taken
      refine ⟨more, extends_, still, ?_⟩
      rcases answer with answer | ⟨rfl, _⟩
      · cases answer with
        | page nextAt => exact ⟨label, extends_.futures labelAt, nextAt⟩
        | past missing => trivial
        | thrown at_ why => trivial
      · trivial

def LogJustified (labels : Labels) (log : CallLog) : Prop :=
  ∀ entry ∈ log, Justified labels entry.1 entry.2

def StateConsistent (server : Option Token → CassResult Token Content)
    (decode : Content → Except Exception (List Row)) (start : Option Token)
    (state : Query Token Content Row × CallLog) : Prop :=
  ∃ labels, Consistent server decode start labels state.1 ∧ LogJustified labels state.2

/-- A run keeps labels for all objects that agree with every reply in the log. -/
theorem queryRun_consistent {calls : List Call} {log : CallLog}
    (run : Run (loggedCall server decode) (fun _ _ => True) ({ statement := start }, [])
      calls (query, log)) :
    StateConsistent server decode start (query, log) := by
  have initial : StateConsistent server decode start
      (({ statement := start }, []) : Query Token Content Row × CallLog) :=
    ⟨⟨[], []⟩, ⟨.nil, .nil, fun _ _ => rfl⟩, by simp [LogJustified]⟩
  refine run.invariant ?_ initial
  rintro ⟨query, log⟩ call next ⟨labels, consistent, justified⟩ _ taken
  obtain ⟨⟨after, reply⟩, called, rfl⟩ := by
    simpa only [loggedCall, Option.bind_eq_bind, Option.bind_eq_some_iff,
      Option.some.injEq] using taken
  obtain ⟨more, extends_, still, latest⟩ := queryCall_spec consistent called
  refine ⟨more, still, ?_⟩
  intro entry member
  rcases List.mem_append.mp member with old | new
  · exact (justified entry old).extend extends_
  · rw [List.mem_singleton.mp new]
    exact latest

theorem IsPage.label {log : CallLog} (justified : LogJustified labels log)
    {handle number : Nat} (page : IsPage log handle number) :
    labels.rows[handle]? = some number := by
  induction page with
  | first first =>
      rcases first with ⟨outcome, executed⟩ | ⟨future, outcome, executed, got⟩
      · exact justified _ executed
      · obtain ⟨label, labelAt, zero⟩ := justified _ executed
        obtain ⟨other, otherAt, rowsAt⟩ := justified _ got
        obtain rfl := Option.some.inj (labelAt.symm.trans otherAt)
        rwa [zero] at rowsAt
  | next _ successor ih =>
      rcases successor with ⟨outcome, called⟩ | ⟨future, outcome, called, got⟩
      · obtain ⟨number, selfAt, nextAt⟩ := justified _ called
        obtain rfl := Option.some.inj (ih.symm.trans selfAt)
        exact nextAt
      · obtain ⟨number, label, selfAt, labelAt, page⟩ := justified _ called
        obtain ⟨other, otherAt, rowsAt⟩ := justified _ got
        obtain rfl := Option.some.inj (ih.symm.trans selfAt)
        obtain rfl := Option.some.inj (labelAt.symm.trans otherAt)
        rwa [page] at rowsAt

def Query.rowsOf (query : Query Token Content Row) (handle : Nat) : List Row :=
  match query.rows[handle]? with
  | some object => object.rows
  | none => []

theorem Consistent.rowsOf_eq (consistent : Consistent server decode start labels query)
    {handle number : Nat} (labelAt : labels.rows[handle]? = some number) :
    query.rowsOf handle = pageRows server decode start number := by
  obtain ⟨object, objectAt, agree⟩ := consistent.rows.object labelAt
  obtain ⟨page, at_, decoded, _⟩ := agree.page
  simp only [Query.rowsOf, objectAt, pageRows, at_, decoded]

/-- Following successors from one page on lists the pages in order. -/
theorem Consistent.rowsOf_chain (consistent : Consistent server decode start labels query)
    {log : CallLog} (justified : LogJustified labels log) {handle number : Nat}
    (page : IsPage log handle number) {rest : List Nat}
    (chain : List.IsChain (Successor log) (handle :: rest)) :
    (handle :: rest).flatMap query.rowsOf =
        (List.range' number (rest.length + 1)).flatMap (pageRows server decode start) ∧
      IsPage log ((handle :: rest).getLast (List.cons_ne_nil handle rest))
        (number + rest.length) := by
  induction rest generalizing handle number with
  | nil =>
      have rows := consistent.rowsOf_eq (page.label justified)
      exact ⟨by simp [rows], page⟩
  | cons next rest ih =>
      rw [List.isChain_cons_cons] at chain
      obtain ⟨rows, last⟩ := ih (page.next chain.1) chain.2
      have first := consistent.rowsOf_eq (page.label justified)
      constructor
      · rw [List.flatMap_cons, rows, first]
        simp only [List.length_cons, List.range'_succ, List.flatMap_cons]
      · rw [List.getLast_cons (List.cons_ne_nil next rest), List.length_cons]
        have shift : number + (rest.length + 1) = number + 1 + rest.length := by omega
        rwa [shift]

/-- What a program gets when it asks for page `number`: nothing behind the last page, and
a new object when the answer arrives and can be decoded. -/
def AnswersWithPage (server : Option Token → CassResult Token Content)
    (decode : Content → Except Exception (List Row)) (start : Option Token) (number : Nat)
    (outcome : WaitOutcome) (reply : Reply) : Prop :=
  (pageAt server start number = none → reply = .null) ∧
    ∀ page rows, pageAt server start number = some page → decode page.content = .ok rows →
      outcome = .ready → ∃ handle, reply = .rows handle

theorem PageReply.answers {rows : List Nat} {number : Nat} {outcome : WaitOutcome}
    {reply : Reply} (answer : PageReply server decode start rows outcome number reply)
    (known : ∀ handle : Nat, rows[handle]? = some number → (pageAt server start number).isSome) :
    AnswersWithPage server decode start number outcome reply := by
  cases answer with
  | page labelAt =>
      refine ⟨fun missing => ?_, fun _ _ _ _ _ => ⟨_, rfl⟩⟩
      have there := known _ labelAt
      rw [missing] at there
      cases there
  | past missing =>
      refine ⟨fun _ => rfl, fun page rows at_ => ?_⟩
      rw [missing] at at_
      cases at_
  | thrown at_ why =>
      refine ⟨fun missing => ?_, ?_⟩
      · rw [missing] at at_
        cases at_
      · rintro page rows pageAt_ decoded rfl
        obtain rfl := Option.some.inj (at_.symm.trans pageAt_)
        rcases why with waited | undecodable
        · cases waited
        · rw [decoded] at undecodable
          cases undecodable

theorem Consistent.pageAt_isSome (consistent : Consistent server decode start labels query)
    {handle number : Nat} (labelAt : labels.rows[handle]? = some number) :
    (pageAt server start number).isSome := by
  obtain ⟨_, _, agree⟩ := consistent.rows.object labelAt
  obtain ⟨page, at_, _⟩ := agree.page
  simp [at_]

def threePages : Option Nat → CassResult Nat (List Nat)
  | none => { content := [10, 11], pagingState := some 1 }
  | some 1 => { content := [20], pagingState := some 2 }
  | some _ => { content := [30, 31], pagingState := none }

end

end PhpDriver
