import DocumentSearch.Proofs.Engine.Session
import DocumentSearch.Store.Search

/-!
# Which cursors are released

A cursor is noted when the page that carries it has been read to its last hit, not when the page
has come in. So a session releases the cursors of the pages it could read, whichever way it ends,
and leaves the cursor of a page with an unreadable hit to expire.
-/

namespace DocumentSearch

/-- A received answer with this cursor, all hits of which can be read. -/
def CarriesRead {α : Type} (read : Materializer α) (received : List Scripted) (cursor : String) :
    Prop :=
  ∃ r page records, Scripted.response r ∈ received ∧ r.status = 200 ∧
    ResultPage.parse r.body = .ok page ∧ page.cursor = some cursor ∧
    readHits read page.hits = .ok records

/-- Whether a call is answered from the script. -/
def Call.isSearch : Call → Bool
  | .postQuery .. | .getScroll _ => true
  | _ => false

/-- Between two states of the engine, each search call has received an item of the script while
there was one, and the released cursors are those of the received pages whose hits can all be
read. -/
def ReleasesRead {α : Type} (read : Materializer α) (before after : Engine) : Prop :=
  ∃ received calls, before.responses = received ++ after.responses ∧
    after.calls = before.calls ++ calls ∧
    received = before.responses.take (calls.countP Call.isSearch) ∧
    ∀ cursor, (∃ ids, .clearScrollIds ids ∈ calls ∧ cursor ∈ ids) ↔
      CarriesRead read received cursor

section Sessions

variable {α : Type} {h : Host}

theorem carriesRead_iff {read : Materializer α} {received : List Scripted} {cursor : String} :
    CarriesRead read received cursor ↔
      cursor ∈ (received.filterMap (Scroll.accepted read)).filterMap SearchPage.cursor := by
  simp only [List.mem_filterMap]
  constructor
  · rintro ⟨r, page, records, hmem, hstatus, hparse, hcursor, hread⟩
    have hmaterialize : page.materialize read = .ok ⟨page.total, page.cursor, records⟩ := by
      rw [ResultPage.materialize, hread]
    exact ⟨_, ⟨_, hmem, Scroll.accepted_iff.mpr ⟨hstatus, page, hparse, hmaterialize⟩⟩, hcursor⟩
  · rintro ⟨found, ⟨item, hmem, haccepted⟩, hcursor⟩
    cases item with
    | failure reason => cases haccepted
    | response r =>
      obtain ⟨hstatus, page, hparse, hmaterialize⟩ := Scroll.accepted_iff.mp haccepted
      rw [ResultPage.materialize] at hmaterialize
      cases hread : readHits read page.hits with
      | error e => simp [hread] at hmaterialize
      | ok records =>
        obtain rfl : ⟨page.total, page.cursor, records⟩ = found := by
          simpa [hread] using hmaterialize
        exact ⟨r, page, records, hmem, hstatus, hparse, hcursor, hread⟩

/-- A session begins with a search and goes on with continuations, so it releases only at its
end. -/
theorem mem_released_iff {docType index query cursor : String} {asked ids : List String} :
    (∃ ids', Call.clearScrollIds ids' ∈ .postQuery true docType index query ::
        asked.map .getScroll ++ CursorSet.releaseCalls ids ∧ cursor ∈ ids') ↔ cursor ∈ ids := by
  unfold CursorSet.releaseCalls
  by_cases hids : ids = []
  · simp [hids]
  · simp [hids]

theorem releasesRead_run (s : Scroll α) (hplans : h.engine.plans = [])
    (docType index query : String) :
    ReleasesRead s.read h.engine (s.run docType index query h).2.engine := by
  have hsession := Scroll.session_run (s := s) hplans docType index query
  generalize s.follow "404 for query?" 0 [] h.engine.responses = c at hsession
  refine ⟨h.engine.responses.take (c.asked.length + 1),
    .postQuery true docType index query :: c.asked.map .getScroll ++
      CursorSet.releaseCalls (c.pages.filterMap SearchPage.cursor).eraseDups, ?_, ?_, ?_, ?_⟩
  · rw [hsession.script_eq, List.take_append_drop]
  · rw [hsession.calls_eq, List.append_assoc, List.cons_append]
  · rw [countP_sessionCalls (fun _ => rfl) (fun _ => rfl)]
    rfl
  · intro cursor
    rw [mem_released_iff, List.mem_eraseDups, carriesRead_iff, hsession.pages_eq]

/-- A session that never began has released nothing, and nothing was received. -/
theorem releasesRead_refl (read : Materializer α) (e : Engine) : ReleasesRead read e e := by
  refine ⟨[], [], by simp, by simp, by simp, ?_⟩
  intro cursor
  simp [CarriesRead]

theorem engine_collect (read : Materializer α) (maxRounds : Option Nat)
    (docType index query : String) :
    (Scroll.collect read maxRounds docType index query h).2.engine =
      ((⟨read, fun _ => false, maxRounds⟩ : Scroll α).run docType index query h).2.engine := by
  rw [Scroll.collect]
  obtain ⟨⟨outcome, records⟩, h'⟩ :=
    (⟨read, fun _ => false, maxRounds⟩ : Scroll α).run docType index query h
  cases outcome <;> rfl

theorem engine_compileText (q : Query) : (q.compileText h).2.engine = h.engine := by
  rw [Query.compileText, Action.thenDo, Action.ofExcept]
  cases q.compile <;> rfl

theorem releasesRead_scroll (q : Query) (s : Scroll α) (hplans : h.engine.plans = []) :
    ReleasesRead s.read h.engine (q.scroll s h).2.engine := by
  have hengine := engine_compileText (h := h) q
  rw [Query.scroll]
  cases hcompiled : q.compileText h with
  | mk outcome h' =>
    rw [hcompiled] at hengine
    dsimp only at hengine ⊢
    rw [← hengine] at hplans ⊢
    cases outcome with
    | ok text => exact releasesRead_run s hplans _ _ text
    | error e => exact releasesRead_refl s.read h'.engine
    | cancelled => exact releasesRead_refl s.read h'.engine

end Sessions

/-- However a session ends and by whichever entry it began, a cursor is released if and only if a
received page that carries it could be read to the last hit. -/
theorem releasesRead_sessions {h : Host} (hplans : h.engine.plans = []) :
    (∀ (α : Type) (s : Scroll α) (docType index query : String),
      ReleasesRead s.read h.engine (s.run docType index query h).2.engine) ∧
    (∀ (α : Type) (read : Materializer α) (maxRounds : Option Nat) (docType index query : String),
      ReleasesRead read h.engine
        (Scroll.collect read maxRounds docType index query h).2.engine) ∧
    (∀ (q : Query) (config : StoreConfig) (stop : List Document → Bool),
      ReleasesRead (.forQuery q) h.engine (q.findEach config stop h).2.engine) ∧
    ∀ (q : Query) (config : StoreConfig) (stop : List RawSource → Bool),
      ReleasesRead RawSource.read h.engine (q.findEachRawSource config stop h).2.engine := by
  refine ⟨?_, ?_, ?_, ?_⟩
  · intro α s docType index query
    exact releasesRead_run s hplans docType index query
  · intro α read maxRounds docType index query
    rw [engine_collect]
    exact releasesRead_run ⟨read, fun _ => false, maxRounds⟩ hplans docType index query
  · intro q config stop
    exact releasesRead_scroll q ⟨.forQuery q, stop, config.maxScrollRounds⟩ hplans
  · intro q config stop
    exact releasesRead_scroll q ⟨RawSource.read, stop, config.maxScrollRounds⟩ hplans

open Scroll (pageAnswer sources)

/-! ### A hit without a source -/

/-- An engine whose only page has a cursor and a hit without a source. -/
def unreadPage : Host :=
  { Host.blank with
    engine := { Engine.blank with
      responses := [.response (pageAnswer 1 "s1" [.ofMembers [("_id", .string "1")]])] } }

/-- The page comes in with its cursor, and the cursor is not released. -/
theorem releasesRead_unreadPage :
    unreadPage.engine.plans = [] ∧
      (ResultPage.parse (pageAnswer 1 "s1" [.ofMembers [("_id", .string "1")]]).body).toOption.bind
        ResultPage.cursor = some "s1" ∧
      (sources.run "order" "orders" "all" unreadPage).2.engine.responses = [] ∧
      (sources.run "order" "orders" "all" unreadPage).2.engine.calls =
        [.postQuery true "order" "orders" "all"] ∧
      ReleasesRead sources.read unreadPage.engine
        (sources.run "order" "orders" "all" unreadPage).2.engine := by
  obtain ⟨log, hrun⟩ :=
    Scroll.run_eq_follow (s := sources) (h := unreadPage) rfl "order" "orders" "all"
  refine ⟨rfl, by decide +kernel, ?_, ?_, (releasesRead_sessions rfl).1 _ sources _ _ _⟩
  · rw [hrun]
    show ((sources.follow "404 for query?" 0 [] unreadPage.engine.responses).settled
      (.postQuery true "order" "orders" "all") unreadPage.engine).responses = []
    decide +kernel
  · rw [hrun]
    show ((sources.follow "404 for query?" 0 [] unreadPage.engine.responses).settled
      (.postQuery true "order" "orders" "all") unreadPage.engine).calls = _
    decide +kernel

end DocumentSearch
