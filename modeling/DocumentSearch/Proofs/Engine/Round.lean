import DocumentSearch.Proofs.Engine.Course

/-!
# A scroll takes its course

With no interruption planned, every call of a scroll arrives and is answered from the script. The
scroll runs on the state of the engine and ends because the queue gets shorter; `takes_follow` says
that from any state on it takes the course that the script sets, and what it leaves of the script
and of the state.
-/

namespace DocumentSearch

/-! ### An engine without plans -/

namespace Engine

/-- The engine when a call has arrived and is not answered yet. -/
def noted (e : Engine) (c : Call) : Engine := { e with calls := e.calls ++ [c] }

/-- The engine when it has taken an item of its script for the search that has arrived and for each
continuation after it. -/
def advanced (e : Engine) (asked : List String) : Engine :=
  { e with
    responses := e.responses.drop (asked.length + 1)
    calls := e.calls ++ asked.map .getScroll }

theorem advanced_cons (e : Engine) (cursor : String) (asked : List String) :
    e.advanced (cursor :: asked) =
      ((e.advanced []).noted (.getScroll cursor)).advanced asked := by
  have hcount : asked.length + 1 + 1 = 1 + (asked.length + 1) := by omega
  simp [advanced, noted, hcount]

theorem nextResponse_of_nil {e : Engine} (h : e.responses = []) :
    e.nextResponse = (.error (.connection "no scripted response left"), e.advanced []) := by
  have hadvanced : e.advanced [] = e := by
    obtain ⟨responses, documents, indexes, refusesRelease, plans, calls⟩ := e
    obtain rfl : responses = [] := h
    simp [advanced]
  rw [nextResponse, h, hadvanced]

theorem nextResponse_of_failure {e : Engine} {reason : String} {rest : List Scripted}
    (h : e.responses = .failure reason :: rest) :
    e.nextResponse = (.error (.connection reason), e.advanced []) := by
  simp [nextResponse, advanced, h]

theorem nextResponse_of_response {e : Engine} {r : Response} {rest : List Scripted}
    (h : e.responses = .response r :: rest) : e.nextResponse = (.ok r, e.advanced []) := by
  simp [nextResponse, advanced, h]

theorem call_of_no_plans {α : Type} {e : Engine} (h : e.plans = []) (c : Call)
    (answer : Engine → Except TransportError α × Engine) :
    e.call c answer = (.done (answer (e.noted c)).1, (answer (e.noted c)).2) := by
  obtain ⟨responses, documents, indexes, refusesRelease, plans, calls⟩ := e
  obtain rfl : plans = [] := h
  rfl

end Engine

def Host.noted (h : Host) (c : Call) : Host := { h with engine := h.engine.noted c }

namespace Scroll

variable {α : Type} {s : Scroll α} {h : Host}

/-! ### Calls and rounds -/

/-- What becomes of a search call that has arrived. -/
def answered (s : Scroll α) (context : String) (p : Progress α) (h : Host) :
    Outcome Unit × Progress α × Host :=
  match h.engine.nextResponse with
  | (.error e, engine) => (.error (.transport e), p, { h with engine := engine })
  | (.ok response, engine) =>
    match response.content context with
    | .error e => (.error e, p, { h with engine := engine })
    | .ok body => s.drive p body { h with engine := engine }

theorem start_eq_answered (hplans : h.engine.plans = []) (docType index query : String) :
    s.start docType index query h =
      s.answered "404 for query?" ⟨.empty, 0, []⟩
        (h.noted (.postQuery true docType index query)) := by
  simp only [start, Action.call, Engine.postQuery, Engine.call_of_no_plans hplans, answered]
  have hengine : (h.noted (.postQuery true docType index query)).engine =
      h.engine.noted (.postQuery true docType index query) := rfl
  rw [hengine]
  cases (h.engine.noted (.postQuery true docType index query)).nextResponse with
  | mk result engine => cases result <;> rfl

/-- One round: the page is read, and the scroll ends or makes a call. -/
theorem drive_eq_answered (hplans : h.engine.plans = []) (p : Progress α) (body : List UInt8) :
    s.drive p body h =
      match s.take p body with
      | (.finished, p, measured) => (.ok (), p, h.recordAll measured)
      | (.failed e, p, measured) => (.error e, p, h.recordAll measured)
      | (.next cursor, p, measured) =>
        s.answered s!"404 for scrollId:{cursor}" { p with rounds := p.rounds + 1 }
          (((h.recordAll measured).record .scrollRound).noted (.getScroll cursor)) := by
  rw [drive]
  obtain ⟨turn, p, measured⟩ := s.take p body
  cases turn with
  | finished => rfl
  | failed e => rfl
  | next cursor =>
    have hmoved : ((h.recordAll measured).record .scrollRound).engine.plans = [] := hplans
    have hreply := Engine.call_of_no_plans hmoved (.getScroll cursor) Engine.nextResponse
    simp only [answered, Host.noted]
    -- The equation of the reply is an argument of the match, so the match is split, not rewritten.
    generalize (((h.recordAll measured).record .scrollRound).engine.noted
      (.getScroll cursor)).nextResponse = answer at hreply ⊢
    obtain ⟨result, engine⟩ := answer
    split
    next engine' heq => cases heq.symm.trans hreply
    next e engine' heq =>
      cases heq.symm.trans hreply
      rfl
    next response engine' heq =>
      cases heq.symm.trans hreply
      rfl

def accept (s : Scroll α) (p : Progress α) (page : SearchPage α) : Progress α :=
  { p with
    cursors := p.cursors.addAll page.cursor.toList
    records := (handOut s.stop p.records page.records).1 }

theorem take_of_ok {p : Progress α} {body : List UInt8} {page : SearchPage α}
    (h : SearchPage.parse s.read body = .ok page) :
    s.take p body =
      (s.turn p.rounds p.records page, s.accept p page, [.pageHits page.records.length]) := by
  rw [take, h]
  rfl

theorem take_of_error {p : Progress α} {body : List UInt8} {e : StoreError}
    (h : SearchPage.parse s.read body = .error e) : s.take p body = (.failed e, p, []) := by
  rw [take, h]

/-- The state after a course from `p` on. -/
def after (s : Scroll α) (p : Progress α) (c : Course α) : Progress α :=
  ⟨p.cursors.addAll c.cursors, p.rounds + c.asked.length, (handOut s.stop p.records c.records).1⟩

theorem after_of_last {p : Progress α} (page : SearchPage α) (ending : Except StoreError Unit) :
    s.after p ⟨[page], [], ending⟩ = s.accept p page := by
  have hcursors : Course.cursors ⟨[page], [], ending⟩ = page.cursor.toList := by
    rw [Course.cursors, List.filterMap_cons]
    cases page.cursor <;> rfl
  simp [after, accept, hcursors, Course.records]

theorem after_preceded {p : Progress α} {page : SearchPage α}
    (h : (handOut s.stop p.records page.records).2 = false) (c : Course α) (cursor : String) :
    s.after p (c.preceded page cursor) =
      s.after { s.accept p page with rounds := p.rounds + 1 } c := by
  have hrounds : p.rounds + (c.asked.length + 1) = p.rounds + 1 + c.asked.length := by omega
  have hasked : (c.preceded page cursor).asked.length = c.asked.length + 1 := rfl
  simp only [after, accept, c.cursors_preceded, c.records_preceded, hasked, hrounds,
    handOut_append h]
  rw [CursorSet.addAll, List.foldl_append]
  rfl

/-! ### Whole courses -/

/-- What follows a search call is the course `c`. -/
def Takes (s : Scroll α) (context : String) (p : Progress α) (h : Host) (c : Course α) : Prop :=
  ∃ log, s.answered context p h =
    (.ofExcept c.ending, s.after p c, ⟨h.engine.advanced c.asked, log, h.folder⟩)

section Rounds

variable {context : String} {p : Progress α} {r : Response} {rest : List Scripted}
  {page : SearchPage α}

/-- An answer without a page leaves the progress and the log as they were. -/
theorem answered_of_no_page {e : StoreError} (hscript : h.engine.responses = .response r :: rest)
    (hplans : h.engine.plans = []) (hpage : s.pageOf context r = .error e) :
    s.answered context p h = (.error e, p, ⟨h.engine.advanced [], h.log, h.folder⟩) := by
  rw [answered, Engine.nextResponse_of_response hscript]
  dsimp only
  cases hcontent : r.content context with
  | error e' =>
    rw [pageOf, hcontent] at hpage
    obtain rfl := Except.error.inj hpage
    rfl
  | ok body =>
    rw [pageOf, hcontent] at hpage
    have hmoved : ({ h with engine := h.engine.advanced [] } : Host).engine.plans = [] := hplans
    dsimp only
    rw [drive_eq_answered hmoved, take_of_error hpage]
    simp [Host.recordAll]

theorem takes_of_error {e : StoreError} (hscript : h.engine.responses = .response r :: rest)
    (hplans : h.engine.plans = []) (hpage : s.pageOf context r = .error e) :
    s.Takes context p h ⟨[], [], .error e⟩ :=
  ⟨h.log, answered_of_no_page hscript hplans hpage⟩

/-- An answer with a page is taken, and the turn after it decides. -/
theorem answered_of_page (hscript : h.engine.responses = .response r :: rest)
    (hplans : h.engine.plans = []) (hpage : s.pageOf context r = .ok page) :
    s.answered context p h =
      let log := h.log ++ [.pageHits page.records.length]
      match s.turn p.rounds p.records page with
      | .finished => (.ok (), s.accept p page, ⟨h.engine.advanced [], log, h.folder⟩)
      | .failed e => (.error e, s.accept p page, ⟨h.engine.advanced [], log, h.folder⟩)
      | .next cursor =>
        s.answered s!"404 for scrollId:{cursor}" { s.accept p page with rounds := p.rounds + 1 }
          ⟨(h.engine.advanced []).noted (.getScroll cursor), log ++ [.scrollRound], h.folder⟩ := by
  rw [answered, Engine.nextResponse_of_response hscript]
  dsimp only
  cases hcontent : r.content context with
  | error e =>
    rw [pageOf, hcontent] at hpage
    cases hpage
  | ok body =>
    rw [pageOf, hcontent] at hpage
    have hmoved : ({ h with engine := h.engine.advanced [] } : Host).engine.plans = [] := hplans
    dsimp only
    rw [drive_eq_answered hmoved, take_of_ok hpage]
    cases s.turn p.rounds p.records page <;> rfl

theorem takes_of_last {ending : Except StoreError Unit}
    (hscript : h.engine.responses = .response r :: rest) (hplans : h.engine.plans = [])
    (hpage : s.pageOf context r = .ok page)
    (hturn : (s.turn p.rounds p.records page).ending? = some ending) :
    s.Takes context p h ⟨[page], [], ending⟩ := by
  refine ⟨h.log ++ [.pageHits page.records.length], ?_⟩
  rw [answered_of_page hscript hplans hpage, after_of_last]
  cases hcase : s.turn p.rounds p.records page with
  | finished =>
    rw [hcase] at hturn
    obtain rfl := Option.some.inj hturn
    rfl
  | failed e =>
    rw [hcase] at hturn
    obtain rfl := Option.some.inj hturn
    rfl
  | next cursor =>
    rw [hcase] at hturn
    cases hturn

theorem takes_of_next {cursor : String} {c : Course α}
    (hscript : h.engine.responses = .response r :: rest) (hplans : h.engine.plans = [])
    (hpage : s.pageOf context r = .ok page)
    (hturn : s.turn p.rounds p.records page = .next cursor)
    (hthen : ∀ log, s.Takes s!"404 for scrollId:{cursor}"
      { s.accept p page with rounds := p.rounds + 1 }
      ⟨(h.engine.advanced []).noted (.getScroll cursor), log, h.folder⟩ c) :
    s.Takes context p h (c.preceded page cursor) := by
  have hround := answered_of_page (p := p) hscript hplans hpage
  rw [hturn] at hround
  obtain ⟨log, hrest⟩ := hthen (h.log ++ [.pageHits page.records.length] ++ [.scrollRound])
  refine ⟨log, ?_⟩
  rw [hround, after_preceded (not_stopped_of_next hturn)]
  refine hrest.trans ?_
  rw [← Engine.advanced_cons]
  rfl

/-- From any state on, a scroll takes the course that its script sets. The induction is on the
script: each round takes one item of it. -/
theorem takes_follow {script : List Scripted} (hscript : h.engine.responses = script)
    (hplans : h.engine.plans = []) (context : String) (p : Progress α) :
    s.Takes context p h (s.follow context p.rounds p.records script) := by
  induction script generalizing h context p with
  | nil =>
    rw [Takes, answered, Engine.nextResponse_of_nil hscript]
    exact ⟨_, rfl⟩
  | cons item rest ih =>
    cases item with
    | failure reason =>
      rw [Takes, answered, Engine.nextResponse_of_failure hscript]
      exact ⟨_, rfl⟩
    | response r =>
      rcases s.follow_cases context p.rounds p.records r rest with
        ⟨e, hpage, hfollow⟩ | ⟨page, ending, hpage, hturn, hfollow⟩ |
        ⟨page, cursor, hpage, hturn, hfollow⟩
      · rw [hfollow]
        exact takes_of_error hscript hplans hpage
      · rw [hfollow]
        exact takes_of_last hscript hplans hpage hturn
      · rw [hfollow]
        apply takes_of_next hscript hplans hpage hturn
        intro log
        have hrest : (h.engine.advanced []).responses = rest := by
          simp [Engine.advanced, hscript]
        exact ih (h := ⟨(h.engine.advanced []).noted (.getScroll cursor), log, h.folder⟩) hrest
          hplans s!"404 for scrollId:{cursor}" { s.accept p page with rounds := p.rounds + 1 }

/-- What is measured until a scroll ends is what is measured in its course. -/
theorem log_answered {script : List Scripted} (hscript : h.engine.responses = script)
    (hplans : h.engine.plans = []) (context : String) (p : Progress α) :
    (s.answered context p h).2.2.log =
      h.log ++ (s.follow context p.rounds p.records script).measured := by
  induction script generalizing h context p with
  | nil =>
    rw [answered, Engine.nextResponse_of_nil hscript]
    exact (List.append_nil h.log).symm
  | cons item rest ih =>
    cases item with
    | failure reason =>
      rw [answered, Engine.nextResponse_of_failure hscript]
      exact (List.append_nil h.log).symm
    | response r =>
      rcases s.follow_cases context p.rounds p.records r rest with
        ⟨e, hpage, hfollow⟩ | ⟨page, ending, hpage, hturn, hfollow⟩ |
        ⟨page, cursor, hpage, hturn, hfollow⟩
      · rw [hfollow, answered_of_no_page hscript hplans hpage]
        exact (List.append_nil h.log).symm
      · rw [hfollow, answered_of_page hscript hplans hpage]
        cases hcase : s.turn p.rounds p.records page with
        | next cursor =>
          rw [hcase] at hturn
          cases hturn
        | finished => rfl
        | failed e => rfl
      · have hrest : (h.engine.advanced []).responses = rest := by
          simp [Engine.advanced, hscript]
        rw [hfollow, answered_of_page hscript hplans hpage, hturn]
        have hthen := ih (h := ⟨(h.engine.advanced []).noted (.getScroll cursor),
            h.log ++ [.pageHits page.records.length] ++ [.scrollRound], h.folder⟩) hrest hplans
          s!"404 for scrollId:{cursor}" { s.accept p page with rounds := p.rounds + 1 }
        refine hthen.trans ?_
        rw [List.append_assoc, List.append_assoc]
        rfl

end Rounds

end Scroll

end DocumentSearch
