import DocumentSearch.Proofs.Engine.Balance
import DocumentSearch.Proofs.Engine.Paging

/-!
# Requests

A store is asked one thing after the other, and in between its engine may be given more to answer
with. Whatever a request is, dealing with it is balanced, and around that it is counted how it ends
and how long it took. `visits_induction` carries what is shown of one request to any sequence.
-/

namespace DocumentSearch

/-! ### Pages and streams -/

/-- An operation that makes something of what `x` comes back with, counted and timed: the host is as
`x` leaves it, but for the log. -/
theorem Action.timed_observed_map {α β : Type} (op : StoreOperation) (x : Action α) (f : α → β)
    (h : Host) :
    ((x.map f).observed op).timed op h =
      ((x h).1.map f, ((x h).2.recordAll (measurementsOf op (x h).1)).record (.latency op)) := by
  simp only [timed, observed, map, thenDo]
  rcases x h with ⟨outcome, h'⟩
  cases outcome <;> rfl

namespace Query

variable {q : Query} {h : Host} {j : Json}

theorem compileText_of_error {e : StoreError} (hcompiled : q.compile = .error e) :
    q.compileText h = (.error e, h) := by
  simp only [compileText, Action.thenDo, Action.ofExcept, hcompiled, Outcome.ofExcept]

theorem fetchPage_of_error {e : StoreError} (hcompiled : q.compile = .error e) :
    q.fetchPage h = (.error e, h) := by
  simp only [fetchPage, Action.thenDo, compileText_of_error hcompiled]

theorem scroll_of_error {α : Type} {e : StoreError} (hcompiled : q.compile = .error e)
    (s : Scroll α) : q.scroll s h = (⟨.error e, []⟩, h) := by
  simp only [scroll, compileText_of_error hcompiled]

/-- The search that a request begins with. -/
def searchCall (q : Query) (scroll : Bool) (j : Json) : Call :=
  .postQuery scroll q.recordType.mapping.docType q.recordType.mapping.index j.write

/-- What is measured of the page that a request comes back with. -/
def hitsMeasured : Outcome (SearchPage Document) → List Measurement
  | .ok page => [.pageHits page.records.length]
  | _ => []

/-- A page takes one call, whatever it is answered with. -/
theorem fetchPage_of_ok (hcompiled : q.compile = .ok j) (hplans : h.engine.plans = []) :
    ∃ outcome, outcome ≠ .cancelled ∧ q.fetchPage h =
      (outcome, ⟨h.engine.served [q.searchCall false j],
        h.log ++ .queryBytes (Utf8.encode j.write).length :: hitsMeasured outcome, h.folder⟩) := by
  obtain ⟨result, hnext⟩ := (h.engine.noted (q.searchCall false j)).exists_nextResponse
  have hsearch : (q.searchCall false j).isSearch = true := rfl
  rw [Engine.advanced_noted hsearch] at hnext
  unfold searchCall at hnext ⊢
  simp only [fetchPage, Action.thenDo, compileText_of_ok hcompiled, Action.call, Host.record,
    Engine.postQuery, Engine.call_of_no_plans hplans, hnext]
  cases result with
  | error e => exact ⟨.error (.transport e), by simp, rfl⟩
  | ok response =>
    simp only [Action.ofExcept]
    cases hcontent : response.content "404 for query?" with
    | error e => exact ⟨.error e, by simp, rfl⟩
    | ok body =>
      simp only [Outcome.ofExcept]
      cases hpage : SearchPage.parse (.forQuery q) body with
      | error e => exact ⟨.error e, by simp, rfl⟩
      | ok page =>
        refine ⟨.ok page, by simp, ?_⟩
        simp [Action.record, Host.record, Action.done, hitsMeasured]

theorem balanced_fetchPage (q : Query) (hplans : h.engine.plans = []) :
    ∃ calls measured, Balanced h ((q.fetchPage h).1.map fun _ => none) (q.fetchPage h).2 calls
      measured := by
  cases hcompiled : q.compile with
  | error e =>
    rw [fetchPage_of_error hcompiled]
    exact ⟨[], [], balanced_error h e⟩
  | ok j =>
    obtain ⟨outcome, hended, hfetched⟩ := fetchPage_of_ok hcompiled hplans
    refine ⟨[q.searchCall false j],
      .queryBytes (Utf8.encode j.write).length :: hitsMeasured outcome, ?_⟩
    rw [hfetched]
    cases outcome with
    | cancelled => exact absurd rfl hended
    | _ =>
      refine ⟨rfl, rfl, ?_, ?_, ?_, ?_, rfl, rfl⟩ <;>
        simp [hitsMeasured, Measurement.isInner, searchCall, Call.isContinuation, Outcome.map]

end Query

/-- A stream is balanced, and one that goes to the end without a break hands out all the hits that
it measures. -/
theorem Query.balanced_scroll {α : Type} (q : Query) (s : Scroll α) {h : Host}
    (hplans : h.engine.plans = []) :
    ∃ calls measured,
      Balanced h ((q.scroll s h).1.outcome.map some) (q.scroll s h).2 calls measured ∧
      ∀ n, (q.scroll s h).1.outcome = .ok n →
        (∀ first, first ≠ [] → first <+: (q.scroll s h).1.records → s.stop first = false) →
        (measured.filterMap Measurement.hits?).sum = n := by
  cases hcompiled : q.compile with
  | error e =>
    rw [scroll_of_error hcompiled]
    exact ⟨[], [], balanced_error h e, nofun⟩
  | ok j =>
    let m := q.recordType.mapping
    let sent := h.record (.queryBytes (Utf8.encode j.write).length)
    have hscroll : q.scroll s h = s.run m.docType m.index j.write sent := scroll_of_ok hcompiled s
    have hrun := s.run_eq_logged (h := sent) hplans m.docType m.index j.write
    dsimp only at hrun
    generalize s.follow "404 for query?" 0 [] sent.engine.responses = c at hrun
    rw [hscroll, hrun]
    refine ⟨_, _, (c.balanced_logged s.stop sent sent.folder rfl rfl rfl).after_queryBytes, ?_⟩
    intro n hn hunbroken
    rw [Scroll.records_ofEnding] at hunbroken
    obtain rfl := Scroll.outcome_ofEnding hn
    rw [List.filterMap_cons_none rfl, c.filterMap_measured_logged, cutAfter_of_unbroken hunbroken,
      Course.records, List.length_flatMap]

/-! ### Lookups -/

namespace RecordType

theorem balanced_lookUp (t : RecordType) (id : Scalar) {h : Host} (hplans : h.engine.plans = []) :
    ∃ calls measured,
      Balanced h ((t.lookUp id h).1.map fun _ => none) (t.lookUp id h).2 calls measured := by
  refine ⟨[.getDocSource t.mapping.docType t.mapping.index id.asText], [], ?_⟩
  simp only [lookUp, Action.thenDo, Action.call, Engine.getDocSource,
    Engine.call_of_no_plans hplans, Action.ofExcept]
  generalize t.readLookup id.asText _ = result
  cases result <;>
    refine ⟨rfl, (List.append_nil _).symm, ?_, ?_, rfl, rfl, rfl, rfl⟩ <;>
    simp [Outcome.ofExcept, Outcome.map]

end RecordType

/-! ### Requests -/

/-- What a store is asked for. -/
inductive Request where
  | list (q : Query)
  | pagedList (q : Query)
  | each (q : Query) (stop : List Document → Bool)
  | eachRawSource (q : Query) (stop : List RawSource → Bool)
  | byId (t : RecordType) (id : Scalar)

namespace Request

variable (config : StoreConfig)

def operation : Request → StoreOperation
  | .list _ => .findList
  | .pagedList _ => .findPagedList
  | .each .. => .findEach
  | .eachRawSource .. => .findEachRawSource
  | .byId .. => .getById

/-- Makes a request. Of what it ends with, only the count of a stream is kept. -/
def run (r : Request) (h : Host) : Outcome (Option Nat) × Host :=
  match r with
  | .list q => ((q.findList h).1.map fun _ => none, (q.findList h).2)
  | .pagedList q => ((q.findPagedList h).1.map fun _ => none, (q.findPagedList h).2)
  | .each q stop =>
    ((q.findEach config stop h).1.outcome.map some, (q.findEach config stop h).2)
  | .eachRawSource q stop =>
    ((q.findEachRawSource config stop h).1.outcome.map some,
      (q.findEachRawSource config stop h).2)
  | .byId t id => ((t.getById id h).1.map fun _ => none, (t.getById id h).2)

/-- A stream whose consumer does not stop at anything that it is handed out. -/
def IsUnbroken (r : Request) (h : Host) : Prop :=
  match r with
  | .each q stop =>
    ∀ first, first ≠ [] → first <+: (q.findEach config stop h).1.records → stop first = false
  | .eachRawSource q stop =>
    ∀ first, first ≠ [] → first <+: (q.findEachRawSource config stop h).1.records →
      stop first = false
  | _ => False

/-- A request before it is counted and timed. -/
def inner (r : Request) (h : Host) : Outcome (Option Nat) × Host :=
  match r with
  | .list q | .pagedList q => ((q.fetchPage h).1.map fun _ => none, (q.fetchPage h).2)
  | .each q stop =>
    let streamed := q.scroll ⟨.forQuery q, stop, config.maxScrollRounds⟩ h
    (streamed.1.outcome.map some, streamed.2)
  | .eachRawSource q stop =>
    let streamed := q.scroll ⟨RawSource.read, stop, config.maxScrollRounds⟩ h
    (streamed.1.outcome.map some, streamed.2)
  | .byId t id => ((t.lookUp id h).1.map fun _ => none, (t.lookUp id h).2)

/-- However a request is dealt with, it is counted how it ends, and then how long it took. -/
theorem run_eq_inner (r : Request) (h : Host) :
    r.run config h =
      ((r.inner config h).1,
        ((r.inner config h).2.recordAll
          (Action.measurementsOf r.operation (r.inner config h).1)).record
            (.latency r.operation)) := by
  cases r with
  | list q =>
    simp only [run, inner, operation, Query.findList, Action.timed_observed_map, Outcome.map_map,
      Outcome.measurementsOf_map]
  | pagedList q =>
    simp only [run, inner, operation, Query.findPagedList, Action.timed_observed_map,
      Outcome.map_map, Outcome.measurementsOf_map]
  | each q stop =>
    simp only [run, inner, Outcome.measurementsOf_map]
    rfl
  | eachRawSource q stop =>
    simp only [run, inner, Outcome.measurementsOf_map]
    rfl
  | byId t id =>
    simp only [run, inner, Outcome.measurementsOf_map]
    rfl

theorem balanced_inner (r : Request) {h : Host} (hplans : h.engine.plans = []) :
    ∃ calls measured,
      Balanced h (r.inner config h).1 (r.inner config h).2 calls measured ∧
      ∀ n, (r.inner config h).1 = .ok (some n) → r.IsUnbroken config h →
        (measured.filterMap Measurement.hits?).sum = n := by
  cases r with
  | list q | pagedList q =>
    obtain ⟨calls, measured, hbalanced⟩ := q.balanced_fetchPage hplans
    exact ⟨calls, measured, hbalanced, fun _ _ hunbroken => hunbroken.elim⟩
  | each q stop =>
    obtain ⟨calls, measured, hbalanced, hhits⟩ :=
      q.balanced_scroll ⟨.forQuery q, stop, config.maxScrollRounds⟩ hplans
    exact ⟨calls, measured, hbalanced, fun n hn => hhits n (Outcome.eq_ok_of_map_some hn)⟩
  | eachRawSource q stop =>
    obtain ⟨calls, measured, hbalanced, hhits⟩ :=
      q.balanced_scroll ⟨RawSource.read, stop, config.maxScrollRounds⟩ hplans
    exact ⟨calls, measured, hbalanced, fun n hn => hhits n (Outcome.eq_ok_of_map_some hn)⟩
  | byId t id =>
    obtain ⟨calls, measured, hbalanced⟩ := t.balanced_lookUp id hplans
    exact ⟨calls, measured, hbalanced, fun _ _ hunbroken => hunbroken.elim⟩

end Request

/-! ### Sequences -/

/-- What may be done to the engine between requests. -/
inductive Arrangement where
  | push (item : Scripted)
  | put (id : String) (r : Response)
  | refuse (refuses : Bool)

def Arrangement.apply (a : Arrangement) (e : Engine) : Engine :=
  match a with
  | .push item => { e with responses := e.responses ++ [item] }
  | .put id r => e.putResponse id r
  | .refuse refuses => { e with refusesRelease := refuses }

inductive Move where
  | arrange (a : Arrangement)
  | ask (r : Request)

/-- A request that was made, with the state of the host before it and after. -/
structure Visit where
  request : Request
  before : Host
  outcome : Outcome (Option Nat)
  after : Host

/-- The calls that were made for a request. -/
def Visit.calls (v : Visit) : List Call :=
  v.after.engine.calls.drop v.before.engine.calls.length

/-- A visit as it is counted and timed: while it is dealt with, `measured` is measured. -/
structure Visit.Measured (config : StoreConfig) (v : Visit) (measured : List Measurement) :
    Prop where
  balanced : Balanced v.before v.outcome
    ⟨v.after.engine, v.before.log ++ measured, v.after.folder⟩ v.calls measured
  log_eq : v.after.log = v.before.log ++ measured ++
    Action.measurementsOf v.request.operation v.outcome ++ [.latency v.request.operation]
  hits : ∀ n, v.outcome = .ok (some n) → v.request.IsUnbroken config v.before →
    (measured.filterMap Measurement.hits?).sum = n

/-- The visit that a request makes. -/
def Request.visit (config : StoreConfig) (r : Request) (h : Host) : Visit :=
  ⟨r, h, (r.run config h).1, (r.run config h).2⟩

theorem Request.measured_visit (config : StoreConfig) (r : Request) {h : Host}
    (hplans : h.engine.plans = []) : ∃ measured, (r.visit config h).Measured config measured := by
  obtain ⟨calls, measured, hbalanced, hhits⟩ := r.balanced_inner config hplans
  have hrun := r.run_eq_inner config h
  have hcalls : (r.visit config h).calls = calls := by
    have hengine : (r.run config h).2.engine = h.engine.served calls := by
      rw [hrun]
      exact hbalanced.engine_eq
    rw [Visit.calls, visit, hengine, Engine.served, List.drop_left]
  refine ⟨measured, ?_, ?_, ?_⟩
  · rw [hcalls]
    obtain ⟨hengine, -, hended, hinner, hopened, hrounds, hreleases, hrecords⟩ := hbalanced
    simp only [visit, hrun]
    exact ⟨hengine, rfl, hended, hinner, hopened, hrounds, hreleases, hrecords⟩
  · simp only [visit, hrun, Host.record, Host.recordAll, hbalanced.log_eq]
  · simp only [visit, hrun]
    exact hhits

/-- The requests that are made in a sequence of moves, and the host at the end. -/
def visits (config : StoreConfig) : List Move → Host → List Visit × Host
  | [], h => ([], h)
  | .arrange a :: rest, h => visits config rest { h with engine := a.apply h.engine }
  | .ask r :: rest, h =>
    let v := r.visit config h
    (v :: (visits config rest v.after).1, (visits config rest v.after).2)

theorem plans_apply (a : Arrangement) (e : Engine) : (a.apply e).plans = e.plans := by
  cases a <;> rfl

theorem calls_apply (a : Arrangement) (e : Engine) : (a.apply e).calls = e.calls := by
  cases a <;> rfl

/-- What holds of no moves, and is kept by an arrangement and by a visit, holds of any sequence. -/
theorem visits_induction {config : StoreConfig}
    {motive : List Move → Host → List Visit → Host → Prop} (hdone : ∀ h, motive [] h [] h)
    (harrange : ∀ a rest h others last,
      motive rest { h with engine := a.apply h.engine } others last →
      motive (.arrange a :: rest) h others last)
    (hask : ∀ v measured rest others last, v.Measured config measured →
      motive rest v.after others last →
      motive (.ask v.request :: rest) v.before (v :: others) last)
    (moves : List Move) {h : Host} (hplans : h.engine.plans = []) :
    motive moves h (visits config moves h).1 (visits config moves h).2 := by
  induction moves generalizing h with
  | nil => exact hdone h
  | cons move rest ih =>
    cases move with
    | arrange a =>
      have hkept : ({ h with engine := a.apply h.engine } : Host).engine.plans = [] :=
        (plans_apply a h.engine).trans hplans
      exact harrange a rest h _ _ (ih hkept)
    | ask r =>
      obtain ⟨measured, hmeasured⟩ := r.measured_visit config hplans
      have hkept : (r.visit config h).after.engine.plans = [] := by
        rw [hmeasured.balanced.engine_eq]
        exact hplans
      exact hask (r.visit config h) measured rest _ _ hmeasured (ih hkept)

end DocumentSearch
