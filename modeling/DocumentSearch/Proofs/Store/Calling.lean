import DocumentSearch.Proofs.Store.Requests

/-!
# What requests ask of the engine

A request that has no query document never reaches the engine. One that has makes a single search
for a list, whatever the answer holds, and begins with a scrolling search for a stream. All requests
draw on one queue, so a call too many would give every later request the answer of another:
`InTurn` says that the answers are taken in the order in which they were pushed, one for each
search.
-/

namespace DocumentSearch

namespace Query

variable (q : Query) (config : StoreConfig)

/-- A request for these documents fails in this way, and the engine is not touched. -/
structure FailsUncalled (h : Host) (e : StoreError) : Prop where
  list : (q.findList h).1 = .error e ∧ (q.findList h).2.engine = h.engine
  pagedList : (q.findPagedList h).1 = .error e ∧ (q.findPagedList h).2.engine = h.engine
  each : ∀ stop, (q.findEach config stop h).1 = ⟨.error e, []⟩ ∧
    (q.findEach config stop h).2.engine = h.engine
  eachRawSource : ∀ stop, (q.findEachRawSource config stop h).1 = ⟨.error e, []⟩ ∧
    (q.findEachRawSource config stop h).2.engine = h.engine

/-- The calls of a stream: a search, continuations, and a release if there is something to
release. -/
def StreamCalls (before : Engine) (j : Json) (after : Engine) : Prop :=
  ∃ asked ids : List String, after = before.served
    (q.searchCall true j :: asked.map .getScroll ++ CursorSet.releaseCalls ids)

/-- A list is one search with the query document `j`, and a stream begins with one. -/
structure CallsAsNeeded (h : Host) (j : Json) : Prop where
  list : (q.findList h).2.engine = h.engine.served [q.searchCall false j]
  pagedList : (q.findPagedList h).2.engine = h.engine.served [q.searchCall false j]
  each : ∀ stop, q.StreamCalls h.engine j (q.findEach config stop h).2.engine
  eachRawSource : ∀ stop, q.StreamCalls h.engine j (q.findEachRawSource config stop h).2.engine

variable {q config} {h : Host}

theorem engine_findList : (q.findList h).2.engine = (q.fetchPage h).2.engine := by
  rw [findList, Action.timed_observed_map]
  rfl

theorem engine_findPagedList : (q.findPagedList h).2.engine = (q.fetchPage h).2.engine := by
  rw [findPagedList, Action.timed_observed_map]
  rfl

theorem failsUncalled_of_error {e : StoreError} (hcompiled : q.compile = .error e) :
    q.FailsUncalled config h e := by
  have hfetch := fetchPage_of_error (h := h) hcompiled
  constructor
  case list =>
    rw [findList, Action.timed_observed_map, hfetch]
    exact ⟨rfl, rfl⟩
  case pagedList =>
    rw [findPagedList, Action.timed_observed_map, hfetch]
    exact ⟨rfl, rfl⟩
  case each =>
    intro stop
    rw [findEach, streamed, scroll_of_error hcompiled]
    exact ⟨rfl, rfl⟩
  case eachRawSource =>
    intro stop
    rw [findEachRawSource, streamed, scroll_of_error hcompiled]
    exact ⟨rfl, rfl⟩

theorem streamCalls_scroll {α : Type} {j : Json} (hcompiled : q.compile = .ok j)
    (hplans : h.engine.plans = []) (s : Scroll α) :
    q.StreamCalls h.engine j (q.scroll s h).2.engine := by
  have hsent : (h.record (.queryBytes (Utf8.encode j.write).length)).engine.plans = [] := hplans
  rw [scroll_of_ok hcompiled, Scroll.run_eq_logged hsent]
  exact ⟨_, _, Course.settled_eq_served _ rfl h.engine⟩

theorem callsAsNeeded_of_ok {j : Json} (hcompiled : q.compile = .ok j)
    (hplans : h.engine.plans = []) : q.CallsAsNeeded config h j := by
  obtain ⟨outcome, -, hfetch⟩ := fetchPage_of_ok hcompiled hplans
  constructor
  case list => rw [engine_findList, hfetch]
  case pagedList => rw [engine_findPagedList, hfetch]
  case each =>
    intro stop
    exact streamCalls_scroll hcompiled hplans ⟨.forQuery q, stop, config.maxScrollRounds⟩
  case eachRawSource =>
    intro stop
    exact streamCalls_scroll hcompiled hplans ⟨RawSource.read, stop, config.maxScrollRounds⟩

end Query

/-! ### The queue -/

/-- What a move adds to the end of the queue. -/
def Move.pushed? : Move → Option Scripted
  | .arrange (.push item) => some item
  | _ => none

/-- What the searches of a visit have taken from the queue. -/
def Visit.taken (v : Visit) : List Scripted :=
  v.before.engine.responses.take (v.calls.countP Call.isSearch)

/-- Every search takes the next item of the queue while there is one: what was taken, visit by
visit, and what is left are together what was there at first and what was pushed, in that order. -/
structure InTurn (moves : List Move) (before : Host) (visits : List Visit) (after : Host) :
    Prop where
  calls_eq : after.engine.calls = before.engine.calls ++ visits.flatMap Visit.calls
  queue_eq : before.engine.responses ++ moves.filterMap Move.pushed? =
    visits.flatMap Visit.taken ++ after.engine.responses
  each_left : ∀ v ∈ visits, v.after.engine.responses =
    v.before.engine.responses.drop (v.calls.countP Call.isSearch)
  /-- When everything has been pushed before, as many items are gone as there were searches. -/
  unpushed : moves.filterMap Move.pushed? = [] → after.engine.responses =
    before.engine.responses.drop ((visits.flatMap Visit.calls).countP Call.isSearch)

theorem responses_apply (a : Arrangement) (e : Engine) :
    (a.apply e).responses = e.responses ++ (Move.arrange a).pushed?.toList := by
  cases a with
  | push item => rfl
  | _ => exact (List.append_nil _).symm

theorem pushed_cons (move : Move) (rest : List Move) :
    (move :: rest).filterMap Move.pushed? =
      move.pushed?.toList ++ rest.filterMap Move.pushed? := by
  rw [List.filterMap_cons]
  cases move.pushed? <;> rfl

theorem InTurn.arrange {a : Arrangement} {rest : List Move} {h last : Host} {others : List Visit}
    (hrest : InTurn rest { h with engine := a.apply h.engine } others last) :
    InTurn (.arrange a :: rest) h others last where
  calls_eq := by rw [hrest.calls_eq, calls_apply]
  queue_eq := by
    rw [pushed_cons, ← List.append_assoc, ← responses_apply]
    exact hrest.queue_eq
  each_left := hrest.each_left
  unpushed := by
    intro hnone
    rw [pushed_cons, List.append_eq_nil_iff] at hnone
    have hsame := responses_apply a h.engine
    rw [hnone.1, List.append_nil] at hsame
    rw [← hsame]
    exact hrest.unpushed hnone.2

theorem InTurn.ask {config : StoreConfig} {v : Visit} {measured : List Measurement}
    {rest : List Move} {last : Host} {others : List Visit} (hv : v.Measured config measured)
    (hrest : InTurn rest v.after others last) :
    InTurn (.ask v.request :: rest) v.before (v :: others) last := by
  have hengine : v.after.engine = v.before.engine.served v.calls := hv.balanced.engine_eq
  have hleft : v.after.engine.responses =
      v.before.engine.responses.drop (v.calls.countP Call.isSearch) := by
    rw [hengine]
    rfl
  constructor
  case calls_eq =>
    rw [hrest.calls_eq, hengine, List.flatMap_cons, ← List.append_assoc]
    rfl
  case queue_eq =>
    have hsplit : v.before.engine.responses = v.taken ++ v.after.engine.responses := by
      rw [hleft]
      exact (List.take_append_drop _ _).symm
    show v.before.engine.responses ++ rest.filterMap Move.pushed? = _
    rw [List.flatMap_cons, List.append_assoc, ← hrest.queue_eq, ← List.append_assoc, ← hsplit]
  case each_left => exact List.forall_mem_cons.mpr ⟨hleft, hrest.each_left⟩
  case unpushed =>
    intro hnone
    rw [hrest.unpushed hnone, hleft, List.drop_drop, List.flatMap_cons, List.countP_append]

theorem inTurn_visits (config : StoreConfig) (moves : List Move) {h : Host}
    (hplans : h.engine.plans = []) :
    InTurn moves h (visits config moves h).1 (visits config moves h).2 := by
  refine visits_induction (fun h => ?_) (fun _ _ _ _ _ => InTurn.arrange)
    (fun _ _ _ _ _ => InTurn.ask) moves hplans
  exact ⟨by simp, by simp, by simp, by simp⟩

/-- A request without a query document fails without a call. One with a query document makes one
search for a list and begins a stream with one, and a list never goes on with a scroll or releases
one. In any sequence of requests the searches take what was pushed, in turn. -/
theorem requests_call_as_needed (config : StoreConfig) :
    (∀ (q : Query) (h : Host) (e : StoreError), q.compile = .error e →
      q.FailsUncalled config h e) ∧
    (∀ (q : Query) (h : Host) (j : Json), q.compile = .ok j → h.engine.plans = [] →
      q.CallsAsNeeded config h j) ∧
    ∀ (moves : List Move) (h : Host), h.engine.plans = [] →
      InTurn moves h (visits config moves h).1 (visits config moves h).2 :=
  ⟨fun _ _ _ => Query.failsUncalled_of_error, fun _ _ _ => Query.callsAsNeeded_of_ok,
    fun moves _ => inTurn_visits config moves⟩

/-- A request for a property that is not mapped. -/
def unmapped : Query := { allOrders with filter := some (.equals "colour" (.text "red")) }

/-- The first answer is a part of three hits, with a cursor to go on with. -/
theorem requests_call_as_needed_inParts :
    (unmapped.findList inParts).2.engine.calls = [] ∧
      (allOrders.findList inParts).2.engine.calls =
        [.postQuery false "order" "orders" "\x7b\"query\":\x7b\"match_all\":\x7b\x7d\x7d\x7d"] ∧
      (allOrders.findList inParts).2.engine.responses = inParts.engine.responses.drop 1 ∧
      InTurn [.ask (.list unmapped), .ask (.list allOrders), .arrange (.push (.failure "gone"))]
        inParts
        (visits twoRounds [.ask (.list unmapped), .ask (.list allOrders),
          .arrange (.push (.failure "gone"))] inParts).1
        (visits twoRounds [.ask (.list unmapped), .ask (.list allOrders),
          .arrange (.push (.failure "gone"))] inParts).2 := by
  obtain ⟨hfails, hcalls, hturn⟩ := requests_call_as_needed twoRounds
  have hunmapped : unmapped.compile = .error _ := rfl
  have hall : allOrders.compile = .ok _ := rfl
  have hlist := (hcalls allOrders inParts _ hall rfl).list
  refine ⟨?_, ?_, ?_, hturn _ inParts rfl⟩
  · rw [(hfails unmapped inParts _ hunmapped).list.2]
    rfl
  · rw [hlist]
    decide +kernel
  · rw [hlist]
    rfl

end DocumentSearch
