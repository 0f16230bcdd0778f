import DocumentSearch.Proofs.Engine.Session

/-!
# What a scroll takes and hands out

Calls can be planned to fail or to stall, so a scroll may end anywhere, and be cancelled while it
releases its cursors. Wherever that is, the items it has taken from the script say what it has
handed out: the records of the pages they hold, in order, up to where the consumer stops it.
-/

namespace DocumentSearch

namespace Engine

variable {α : Type} {e e' : Engine}

/-- A search call that is answered takes its answer from the script; one that is not takes nothing,
or a failure. -/
theorem responses_of_search {c : Call} {reply : Reply Response}
    (h : e.call c nextResponse = (reply, e')) :
    (∃ taken, e.responses = taken ++ e'.responses ∧
      (∀ item ∈ taken, ∃ reason, item = .failure reason) ∧ ∀ r, reply ≠ .done (.ok r)) ∨
    ∃ r, e.responses = .response r :: e'.responses ∧ reply = .done (.ok r) := by
  unfold call at h
  split at h
  next interruption plans _ =>
    cases interruption with
    | fail reason =>
      cases h
      exact .inl ⟨[], rfl, by simp, by simp⟩
    | stall =>
      cases h
      exact .inl ⟨[], rfl, by simp, by simp⟩
    | pass =>
      obtain ⟨rfl, rfl⟩ := Prod.mk.inj h
      dsimp only
      cases e.responses with
      | nil => exact .inl ⟨[], rfl, by simp, by simp⟩
      | cons item rest =>
        cases item with
        | failure reason => exact .inl ⟨[.failure reason], rfl, by simp, by simp⟩
        | response r => exact .inr ⟨r, rfl, rfl⟩

/-- A call that is no search leaves the script alone. -/
theorem responses_of_clearScrollIds (e : Engine) (ids : List String) :
    (e.clearScrollIds ids).2.responses = e.responses := by
  rw [clearScrollIds, call]
  obtain ⟨interruption, plans⟩ := nextPlan _ e.plans
  cases interruption <;> rfl

end Engine

namespace CursorSet

theorem responses_clear (c : CursorSet) (h : Host) :
    (c.clear h).2.engine.responses = h.engine.responses := by
  have hcall := h.engine.responses_of_clearScrollIds c.ids
  rw [clear]
  generalize h.engine.clearScrollIds c.ids = answer at hcall ⊢
  obtain ⟨reply, engine⟩ := answer
  cases reply with
  | done result => cases result <;> exact hcall
  | stalled => exact hcall

theorem responses_release (c : CursorSet) (h : Host) :
    (c.release h).2.2.engine.responses = h.engine.responses := by
  rw [release]
  split
  · rfl
  split
  · rfl
  · exact c.responses_clear h

theorem responses_abandon (c : CursorSet) (background : Bool) (h : Host) :
    (c.abandon background h).engine.responses = h.engine.responses := by
  rw [abandon]
  split
  · rfl
  · exact c.responses_clear h

end CursorSet

namespace Scroll

variable {α : Type} {s : Scroll α} {h : Host}

/-- The records of the page that an item of the script holds, if it is accepted. -/
def recordsOf (read : Materializer α) (item : Scripted) : List α :=
  match accepted read item with
  | some page => page.records
  | none => []

/-- A successful answer is read from its body. -/
theorem recordsOf_of_ok (read : Materializer α) {r : Response} (h : r.status = 200) :
    recordsOf read (.response r) = recordsOf read (.response (.ok r.body)) := by
  rw [recordsOf, recordsOf, accepted, accepted, if_pos h]
  rfl

theorem recordsOf_of_content_error (read : Materializer α) {context : String} {r : Response}
    {e : StoreError} (h : r.content context = .error e) : recordsOf read (.response r) = [] := by
  have hstatus : r.status ≠ 200 := by
    intro hok
    rw [Response.content, if_pos hok] at h
    cases h
  rw [recordsOf, accepted, if_neg hstatus]

theorem flatMap_recordsOf_of_failed (read : Materializer α) {taken : List Scripted}
    (h : ∀ item ∈ taken, ∃ reason, item = .failure reason) :
    taken.flatMap (recordsOf read) = [] := by
  rw [List.flatMap_eq_nil_iff]
  intro item hitem
  obtain ⟨reason, rfl⟩ := h item hitem
  rfl

theorem content_eq_ok {context : String} {r : Response} {body : List UInt8}
    (h : r.content context = .ok body) : r.status = 200 ∧ r.body = body := by
  rw [Response.content] at h
  split at h
  next hok =>
    cases h
    exact ⟨hok, rfl⟩
  next => split at h <;> cases h

/-! ### Rounds -/

section Rounds

variable {p q : Progress α} {body : List UInt8}

theorem accepted_ok (read : Materializer α) (body : List UInt8) :
    accepted read (.response (.ok body)) = (SearchPage.parse read body).toOption := by
  rw [accepted]
  exact if_pos rfl

theorem records_take (s : Scroll α) (p : Progress α) (body : List UInt8) :
    (s.take p body).2.1.records =
      (handOut s.stop p.records (recordsOf s.read (.response (.ok body)))).1 := by
  rw [take, recordsOf, accepted_ok]
  cases SearchPage.parse s.read body <;> rfl

/-- When a scroll goes on, all records of its page have been handed out. -/
theorem handed_of_next {cursor : String} {measured : List Measurement}
    (h : s.take p body = (.next cursor, q, measured)) :
    (handOut s.stop p.records (recordsOf s.read (.response (.ok body)))).2 = false := by
  rw [recordsOf, accepted_ok]
  cases hparse : SearchPage.parse s.read body with
  | error e =>
    rw [take_of_error hparse] at h
    cases h
  | ok page =>
    rw [take_of_ok hparse] at h
    exact not_stopped_of_next (Prod.mk.inj h).1

/-- What one round can do. The scroll ends in it, and has taken nothing or an item without a page;
or it goes on from the body of the next item. -/
theorem drive_cases (s : Scroll α) (p : Progress α) (body : List UInt8) (h : Host) :
    (∃ taken, h.engine.responses = taken ++ (s.drive p body h).2.2.engine.responses ∧
      taken.flatMap (recordsOf s.read) = [] ∧
      (s.drive p body h).2.1.records = (s.take p body).2.1.records) ∨
    ∃ cursor q measured r h', s.take p body = (.next cursor, q, measured) ∧
      h.engine.responses = .response r :: h'.engine.responses ∧ r.status = 200 ∧
      s.drive p body h = s.drive { q with rounds := q.rounds + 1 } r.body h' := by
  rw [drive]
  obtain ⟨turn, q, measured⟩ := s.take p body
  cases turn with
  | finished => exact .inl ⟨[], rfl, rfl, rfl⟩
  | failed e => exact .inl ⟨[], rfl, rfl, rfl⟩
  | next cursor =>
    dsimp only
    split
    next engine hreply =>
      rcases Engine.responses_of_search hreply with ⟨taken, heq, hfailed, -⟩ | ⟨r, -, hr⟩
      · exact .inl ⟨taken, heq, flatMap_recordsOf_of_failed s.read hfailed, rfl⟩
      · cases hr
    next e engine hreply =>
      rcases Engine.responses_of_search hreply with ⟨taken, heq, hfailed, -⟩ | ⟨r, -, hr⟩
      · exact .inl ⟨taken, heq, flatMap_recordsOf_of_failed s.read hfailed, rfl⟩
      · cases hr
    next r engine hreply =>
      rcases Engine.responses_of_search hreply with ⟨-, -, -, hr⟩ | ⟨r', heq, hr⟩
      · exact absurd rfl (hr r)
      · cases hr
        cases hcontent : r.content s!"404 for scrollId:{cursor}" with
        | error e =>
          refine .inl ⟨[.response r], heq, ?_, rfl⟩
          rw [List.flatMap_singleton, recordsOf_of_content_error s.read hcontent]
        | ok body' =>
          obtain ⟨hok, rfl⟩ := content_eq_ok hcontent
          exact .inr ⟨cursor, q, measured, r, ⟨engine, _, h.folder⟩, rfl, heq, hok, rfl⟩

end Rounds

/-! ### Whole scrolls -/

/-- From a body on, a scroll hands out its records and those of the items that it takes after it.
The induction is on the script, of which each round takes an item. -/
theorem records_drive {script : List Scripted} (hscript : h.engine.responses = script)
    (p : Progress α) (body : List UInt8) :
    ∃ taken, h.engine.responses = taken ++ (s.drive p body h).2.2.engine.responses ∧
      (s.drive p body h).2.1.records = (handOut s.stop p.records
        ((Scripted.response (.ok body) :: taken).flatMap (recordsOf s.read))).1 := by
  induction script generalizing h p body with
  | nil =>
    rcases s.drive_cases p body h with ⟨taken, heq, hnone, hrecords⟩ | ⟨_, _, _, r, h', -, heq, -⟩
    · refine ⟨taken, heq, ?_⟩
      rw [List.flatMap_cons, hnone, List.append_nil, hrecords, records_take]
    · cases hscript.symm.trans heq
  | cons item rest ih =>
    rcases s.drive_cases p body h with ⟨taken, heq, hnone, hrecords⟩ |
      ⟨cursor, q, measured, r, h', htake, heq, hok, hdrive⟩
    · refine ⟨taken, heq, ?_⟩
      rw [List.flatMap_cons, hnone, List.append_nil, hrecords, records_take]
    · obtain ⟨-, hrest⟩ := List.cons.inj (heq.symm.trans hscript)
      obtain ⟨taken, htaken, hrecords⟩ := ih hrest { q with rounds := q.rounds + 1 } r.body
      have hq := records_take s p body
      rw [htake] at hq
      refine ⟨.response r :: taken, ?_, ?_⟩
      · rw [hdrive, heq, htaken, List.cons_append]
      · rw [hdrive, hrecords, List.flatMap_cons, List.flatMap_cons,
          handOut_append (handed_of_next htake), ← hq, List.flatMap_cons,
          recordsOf_of_ok s.read hok]

/-- From `before` to `after` some items have been taken from the script, and their records have been
handed out, up to where the consumer stops. -/
def HandsOut (s : Scroll α) (before after : Engine) (records : List α) : Prop :=
  ∃ taken, before.responses = taken ++ after.responses ∧
    records = cutAfter s.stop (taken.flatMap (recordsOf s.read))

theorem handsOut_nil {taken : List Scripted} {before after : Engine}
    (heq : before.responses = taken ++ after.responses)
    (hnone : taken.flatMap (recordsOf s.read) = []) : s.HandsOut before after [] := by
  refine ⟨taken, heq, ?_⟩
  rw [hnone]
  rfl

theorem handsOut_start (s : Scroll α) (docType index query : String) (h : Host) :
    s.HandsOut h.engine (s.start docType index query h).2.2.engine
      (s.start docType index query h).2.1.records := by
  rw [start, Action.call]
  cases hreply : h.engine.postQuery true docType index query with
  | mk reply engine =>
    rcases Engine.responses_of_search hreply with ⟨taken, heq, hfailed, hr⟩ | ⟨r, heq, rfl⟩
    · have hnone := flatMap_recordsOf_of_failed s.read hfailed
      cases reply with
      | stalled => exact handsOut_nil heq hnone
      | done result =>
        cases result with
        | error e => exact handsOut_nil heq hnone
        | ok r => exact absurd rfl (hr r)
    · dsimp only
      cases hcontent : r.content "404 for query?" with
      | error e =>
        have htaken : h.engine.responses = [.response r] ++ engine.responses := heq
        have hnone := recordsOf_of_content_error s.read hcontent
        exact handsOut_nil htaken (by rw [List.flatMap_singleton, hnone])
      | ok body =>
        obtain ⟨hok, rfl⟩ := content_eq_ok hcontent
        obtain ⟨taken, htaken, hrecords⟩ :=
          records_drive (s := s) (h := { h with engine := engine }) rfl ⟨.empty, 0, []⟩ r.body
        refine ⟨.response r :: taken, ?_, ?_⟩
        · rw [heq, List.cons_append, ← htaken]
        · rw [hrecords, handOut_eq_cutAfter, List.flatMap_cons, List.flatMap_cons,
            recordsOf_of_ok s.read hok]

theorem settle_spec (outcome : Outcome Unit) (p : Progress α) (h : Host) :
    (settle outcome p h).1.records = p.records ∧
      (settle outcome p h).2.engine.responses = h.engine.responses := by
  have hrelease := p.cursors.responses_release h
  rw [settle]
  generalize p.cursors.release h = released at hrelease ⊢
  obtain ⟨back, cursors, h'⟩ := released
  cases back with
  | false => exact ⟨rfl, (cursors.responses_abandon true h').trans hrelease⟩
  | true => cases outcome <;> exact ⟨rfl, hrelease⟩

theorem handsOut_run (s : Scroll α) (docType index query : String) (h : Host) :
    s.HandsOut h.engine (s.run docType index query h).2.engine
      (s.run docType index query h).1.records := by
  have hstart := s.handsOut_start docType index query (h.record .scrollOpened)
  rw [run]
  generalize s.start docType index query (h.record .scrollOpened) = started at hstart ⊢
  obtain ⟨outcome, p, h'⟩ := started
  obtain ⟨taken, heq, hrecords⟩ := hstart
  dsimp only at heq hrecords
  have hsettle := settle_spec outcome p h'
  cases outcome with
  | cancelled =>
    refine ⟨taken, ?_, hrecords⟩
    dsimp only
    rw [CursorSet.responses_abandon]
    exact heq
  | ok _ =>
    refine ⟨taken, ?_, hsettle.1.trans hrecords⟩
    rw [hsettle.2]
    exact heq
  | error e =>
    refine ⟨taken, ?_, hsettle.1.trans hrecords⟩
    rw [hsettle.2]
    exact heq

end Scroll

end DocumentSearch
