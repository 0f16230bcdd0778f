import DocumentSearch.Proofs.Engine.Round

/-!
# Scroll sessions

What a scroll leaves behind when it has ended: the calls that arrived, what is left of the script,
the records that were handed out, and the cursors that were released. All of it follows from the
course of the scroll, and from the release at its end, which makes one call at most and has no say
in the outcome.
-/

namespace DocumentSearch

/-! ### Releasing cursors -/

namespace CursorSet

theorem addAll_eq (seen ids : List String) :
    (⟨seen, false⟩ : CursorSet).addAll ids =
      ⟨seen ++ (ids.filter fun id => id ∉ seen).eraseDups, false⟩ := by
  induction ids generalizing seen with
  | nil => simp [addAll]
  | cons id rest ih =>
    have hcons : (⟨seen, false⟩ : CursorSet).addAll (id :: rest) =
        ((⟨seen, false⟩ : CursorSet).add id).addAll rest := rfl
    rw [hcons, add]
    by_cases hseen : id ∈ seen
    · rw [if_pos hseen, ih, List.filter_cons_of_neg (by simpa using hseen)]
    · have hfilter : (rest.filter fun x => x ∉ seen ++ [id]) =
          (rest.filter fun x => x ∉ seen).filter fun x => !x == id := by
        rw [List.filter_filter]
        congr 1
        funext x
        by_cases hx : x = id <;> simp [hx]
      rw [if_neg hseen, ih, List.filter_cons_of_pos (by simpa using hseen), List.eraseDups_cons,
        hfilter, List.append_assoc, List.singleton_append]

/-- Cursors are kept once each, in the order in which they came first. -/
theorem addAll_empty (ids : List String) : empty.addAll ids = ⟨ids.eraseDups, false⟩ := by
  rw [empty, addAll_eq]
  simp

/-- The call that releases cursors. There is none when there is nothing to release. -/
def releaseCalls (ids : List String) : List Call :=
  if ids = [] then [] else [.clearScrollIds ids]

/-- What is measured of a release. -/
def releaseMeasured (ids : List String) (succeeded : Bool) : List Measurement :=
  if ids = [] then [] else [.cursorRelease ids.length succeeded]

/-- With no plans the release always comes back, and the call and its measurement are the only
traces it leaves. -/
theorem release_of_no_plans {h : Host} (hplans : h.engine.plans = []) (ids : List String) :
    ∃ cursors, (⟨ids, false⟩ : CursorSet).release h =
      (true, cursors,
        ⟨{ h.engine with calls := h.engine.calls ++ releaseCalls ids },
          h.log ++ releaseMeasured ids (!h.engine.refusesRelease), h.folder⟩) := by
  by_cases hids : ids = []
  · subst hids
    refine ⟨⟨[], true⟩, ?_⟩
    simp [release, releaseCalls, releaseMeasured]
  · simp only [release, clear, Engine.clearScrollIds, Engine.call_of_no_plans hplans, hids,
      releaseCalls, releaseMeasured]
    obtain ⟨⟨responses, documents, indexes, refusesRelease, plans, calls⟩, log, folder⟩ := h
    cases refusesRelease with
    | true => exact ⟨⟨ids, true⟩, rfl⟩
    | false => exact ⟨⟨ids, true⟩, rfl⟩

end CursorSet

/-- The calls of a session are its search, its continuations, and at most one release. -/
theorem countP_sessionCalls {p : Call → Bool} (hasked : ∀ cursor, p (.getScroll cursor) = true)
    (hrelease : ∀ ids, p (.clearScrollIds ids) = false) (search : Call)
    (asked ids : List String) :
    (search :: asked.map Call.getScroll ++ CursorSet.releaseCalls ids).countP p =
      asked.length + if p search then 1 else 0 := by
  have hcontinued : (asked.map Call.getScroll).countP p = asked.length := by
    rw [List.countP_map, List.countP_eq_length.mpr]
    intro cursor _
    exact hasked cursor
  have hreleased : (CursorSet.releaseCalls ids).countP p = 0 := by
    unfold CursorSet.releaseCalls
    split
    · rfl
    · rw [List.countP_singleton, hrelease]
      rfl
  rw [List.countP_append, List.countP_cons, hcontinued, hreleased, Nat.add_zero]

/-! ### Whole sessions -/

/-- What the caller of a scroll gets: on success the count of the records that were handed out. -/
def Streamed.ofEnding {α : Type} (ending : Except StoreError Unit) (records : List α) :
    Streamed α :=
  match ending with
  | .ok _ => ⟨.ok records.length, records⟩
  | .error e => ⟨.error e, records⟩

/-- What a success is measured as. -/
def Streamed.measured {α : Type} (result : Streamed α) : List Measurement :=
  match result.outcome with
  | .ok n => [.scrollRecords n]
  | _ => []

/-- All that is measured of a session with this course, which ends when its cursors have been
released or not. -/
def Course.logged {α : Type} (c : Course α) (stop : List α → Bool) (released : Bool) :
    List Measurement :=
  .scrollOpened :: c.measured ++ CursorSet.releaseMeasured c.cursors.eraseDups released ++
    .scrollClosed :: (Streamed.ofEnding c.ending (cutAfter stop c.records)).measured

/-- The engine when a course that began with the call `first` is over and its cursors are
released. -/
def Course.settled {α : Type} (c : Course α) (first : Call) (e : Engine) : Engine :=
  { e with
    responses := e.responses.drop (c.asked.length + 1)
    calls := e.calls ++ first :: c.asked.map .getScroll ++
      CursorSet.releaseCalls c.cursors.eraseDups }

namespace Scroll

variable {α : Type} {s : Scroll α} {h : Host}

theorem settle_of_no_plans (hplans : h.engine.plans = []) (ending : Except StoreError Unit)
    (ids : List String) (rounds : Nat) (records : List α) :
    settle (.ofExcept ending) ⟨⟨ids, false⟩, rounds, records⟩ h =
      (.ofEnding ending records,
        ⟨{ h.engine with calls := h.engine.calls ++ CursorSet.releaseCalls ids },
          h.log ++ CursorSet.releaseMeasured ids (!h.engine.refusesRelease) ++
            .scrollClosed :: (Streamed.ofEnding ending records).measured,
          h.folder⟩) := by
  obtain ⟨cursors, hrelease⟩ := CursorSet.release_of_no_plans hplans ids
  simp only [settle, hrelease]
  cases ending with
  | ok _ => simp [Outcome.ofExcept, Streamed.ofEnding, Streamed.measured, Host.record]
  | error e => rfl

/-- A session is the course that its script sets, and then the release; so is its log. -/
theorem run_eq_logged (hplans : h.engine.plans = []) (docType index query : String) :
    s.run docType index query h =
      let c := s.follow "404 for query?" 0 [] h.engine.responses
      (.ofEnding c.ending (cutAfter s.stop c.records),
        ⟨c.settled (.postQuery true docType index query) h.engine,
          h.log ++ c.logged s.stop (!h.engine.refusesRelease), h.folder⟩) := by
  have hopened : (h.record .scrollOpened).engine.plans = [] := hplans
  rw [run, start_eq_answered hopened]
  dsimp only
  generalize hc : s.follow "404 for query?" 0 [] h.engine.responses = c
  generalize Call.postQuery true docType index query = first
  have hnoted : ((h.record .scrollOpened).noted first).engine.plans = [] := hplans
  have htakes :
      s.Takes "404 for query?" ⟨.empty, 0, []⟩ ((h.record .scrollOpened).noted first) c := by
    rw [← hc]
    exact takes_follow rfl hnoted "404 for query?" ⟨.empty, 0, []⟩
  have hlog := log_answered (s := s) rfl hnoted "404 for query?" ⟨.empty, 0, []⟩
  obtain ⟨log, hcourse⟩ := htakes
  have hafter : s.after ⟨.empty, 0, []⟩ c =
      ⟨⟨c.cursors.eraseDups, false⟩, 0 + c.asked.length, cutAfter s.stop c.records⟩ := by
    rw [after, CursorSet.addAll_empty, handOut_eq_cutAfter]
  have hlogged : log = h.log ++ [.scrollOpened] ++ c.measured := by
    rw [hcourse] at hlog
    rw [← hc]
    exact hlog
  have hover : (⟨((h.record .scrollOpened).noted first).engine.advanced c.asked, log,
      ((h.record .scrollOpened).noted first).folder⟩ : Host).engine.plans = [] := hplans
  have hsettle := settle_of_no_plans hover c.ending c.cursors.eraseDups
    (0 + c.asked.length) (cutAfter s.stop c.records)
  rw [hcourse, hafter]
  refine Eq.trans ?_ (hsettle.trans ?_)
  · cases c.ending <;> rfl
  · simp [Course.settled, Course.logged, Engine.advanced, Host.noted, Engine.noted, Host.record,
      hlogged]

/-- A session is the course that its script sets, and then the release. -/
theorem run_eq_follow (hplans : h.engine.plans = []) (docType index query : String) :
    ∃ log, s.run docType index query h =
      let c := s.follow "404 for query?" 0 [] h.engine.responses
      (.ofEnding c.ending (cutAfter s.stop c.records),
        ⟨c.settled (.postQuery true docType index query) h.engine, log, h.folder⟩) :=
  ⟨_, run_eq_logged hplans docType index query⟩

/-! ### Calls and records -/

/-- What a session that begins with the call `first` does between two states of the engine:
`pages` are the pages it accepts, `asked` the cursors it goes on with. -/
structure Session (s : Scroll α) (first : Call) (before after : Engine) (result : Streamed α)
    (pages : List (SearchPage α)) (asked : List String) : Prop where
  script_eq : after.responses = before.responses.drop (asked.length + 1)
  pages_eq : pages = (before.responses.take (asked.length + 1)).filterMap (accepted s.read)
  asked_eq : (before.responses.take asked.length).map
    (fun item => (accepted s.read item).bind SearchPage.cursor) = asked.map some
  calls_eq : after.calls = before.calls ++ first :: asked.map .getScroll ++
    CursorSet.releaseCalls (pages.filterMap SearchPage.cursor).eraseDups
  records_eq : result.records = cutAfter s.stop (pages.flatMap SearchPage.records)
  count_eq : ∀ n, result.outcome = .ok n → n = result.records.length
  ended : result.outcome ≠ .cancelled

theorem records_ofEnding (ending : Except StoreError Unit) (records : List α) :
    (Streamed.ofEnding ending records).records = records := by
  cases ending <;> rfl

theorem outcome_ofEnding {ending : Except StoreError Unit} {records : List α} {n : Nat}
    (h : (Streamed.ofEnding ending records).outcome = .ok n) : n = records.length := by
  cases ending with
  | ok _ => exact (Outcome.ok.inj h).symm
  | error e => cases h

theorem session_run (hplans : h.engine.plans = []) (docType index query : String) :
    let c := s.follow "404 for query?" 0 [] h.engine.responses
    s.Session (.postQuery true docType index query) h.engine
      (s.run docType index query h).2.engine (s.run docType index query h).1 c.pages c.asked := by
  obtain ⟨log, hrun⟩ := run_eq_follow (s := s) hplans docType index query
  rw [hrun]
  dsimp only
  generalize hc : s.follow "404 for query?" 0 [] h.engine.responses = c
  constructor
  case script_eq => exact rfl
  case pages_eq =>
    rw [← hc]
    exact pages_follow s "404 for query?" 0 [] h.engine.responses
  case asked_eq =>
    rw [← hc]
    exact asked_follow s "404 for query?" 0 [] h.engine.responses
  case calls_eq => exact rfl
  case records_eq => exact records_ofEnding _ _
  case count_eq =>
    intro n hn
    rw [records_ofEnding]
    exact outcome_ofEnding hn
  case ended =>
    cases c.ending <;> simp [Streamed.ofEnding]

end Scroll

/-- The host, when its engine refuses to release cursors or no longer does. -/
def Host.refusing (h : Host) (refuses : Bool) : Host :=
  { h with engine := { h.engine with refusesRelease := refuses } }

namespace Scroll

variable {α : Type} {s : Scroll α} {h : Host}

/-- The trace of a session: one search; continuations, each with the cursor of the page before it;
at the end one release of the distinct cursors, if there are any. The records are those of the
accepted pages, cut where the consumer stops, and a success counts them. How far it goes and how it
ends is as the course says. Whether the release is refused makes no difference, and a page with a
hit that cannot be read is not accepted. -/
theorem run_disciplined (s : Scroll α) {h : Host} (hplans : h.engine.plans = [])
    (docType index query : String) :
    (∃ c, c = s.follow "404 for query?" 0 [] h.engine.responses ∧
      s.Session (.postQuery true docType index query) h.engine
        (s.run docType index query h).2.engine (s.run docType index query h).1 c.pages c.asked ∧
      (s.run docType index query h).1 = .ofEnding c.ending (cutAfter s.stop c.records)) ∧
    (∀ refuses,
      (s.run docType index query (h.refusing refuses)).1 = (s.run docType index query h).1 ∧
      (s.run docType index query (h.refusing refuses)).2.engine =
        ((s.run docType index query h).2.refusing refuses).engine) ∧
    ∀ r page hit e, ResultPage.parse r.body = .ok page → hit ∈ page.hits →
      s.read hit = .error e → accepted s.read (.response r) = none := by
  obtain ⟨log, hrun⟩ := run_eq_follow (s := s) hplans docType index query
  refine ⟨⟨_, rfl, session_run hplans docType index query, by rw [hrun]⟩, ?_, ?_⟩
  · intro refuses
    have hrefusing : (h.refusing refuses).engine.plans = [] := hplans
    obtain ⟨log', hrun'⟩ := run_eq_follow (s := s) hrefusing docType index query
    rw [hrun, hrun']
    exact ⟨rfl, rfl⟩
  · intro r page hit e hparse hhit hread
    exact accepted_of_unread hparse hhit hread

/-! ### Two pages -/

/-- An answer with a page of hits, of which there are `total` in all. -/
def pageAnswer (total : Nat) (cursor : String) (hits : List Json) : Response :=
  .ok (Json.ofMembers [("_scroll_id", .string cursor),
    ("hits", .ofMembers [("total", .ofNat total), ("hits", .array hits)])]).bytes

/-- An engine that has one hit of two on the first page, and none on the second. -/
def twoPages : Host :=
  { Host.blank with
    engine := { Engine.blank with
      responses :=
        [.response (pageAnswer 2 "s1"
          [.ofMembers [("_id", .string "1"), ("_source", .ofMembers [])]]),
        .response (pageAnswer 2 "s2" [])] } }

def sources : Scroll RawSource := ⟨RawSource.read, fun _ => false, none⟩

theorem run_disciplined_twoPages :
    twoPages.engine.plans = [] ∧
      (sources.run "order" "orders" "all" twoPages).2.engine.calls =
        [.postQuery true "order" "orders" "all", .getScroll "s1",
          .clearScrollIds ["s1", "s2"]] ∧
      ∃ c, c = sources.follow "404 for query?" 0 [] twoPages.engine.responses ∧
        sources.Session (.postQuery true "order" "orders" "all") twoPages.engine
          (sources.run "order" "orders" "all" twoPages).2.engine
          (sources.run "order" "orders" "all" twoPages).1 c.pages c.asked ∧
        (sources.run "order" "orders" "all" twoPages).1 =
          .ofEnding c.ending (cutAfter sources.stop c.records) := by
  refine ⟨rfl, ?_, (run_disciplined sources rfl "order" "orders" "all").1⟩
  obtain ⟨log, hrun⟩ := run_eq_follow (s := sources) (h := twoPages) rfl "order" "orders" "all"
  rw [hrun]
  show ((sources.follow "404 for query?" 0 [] twoPages.engine.responses).settled
    (.postQuery true "order" "orders" "all") twoPages.engine).calls = _
  decide +kernel

end Scroll

end DocumentSearch
