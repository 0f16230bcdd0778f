import DocumentSearch.Proofs.Engine.Meters
import DocumentSearch.Proofs.Engine.Release
import Mathlib.Algebra.GroupWithZero.Nat

/-!
# What is measured of calls

While the store deals with a request it makes calls and measures what it does. `Balanced` says that
the two agree: each search takes an item of the script, scrolls that are opened are closed, there is
a round for each continuation and a release for each release. A session is balanced whichever way
it ends, because its log is that of its course.
-/

namespace DocumentSearch

/-! ### Calls -/

/-- Whether a call goes on with a scroll. -/
def Call.isContinuation : Call → Bool
  | .getScroll _ => true
  | _ => false

/-- The cursors that a call releases, if that is what it does. -/
def Call.released? : Call → Option (List String)
  | .clearScrollIds cursors => some cursors
  | _ => none

/-- The engine when these calls have arrived: each search has taken an item of the script, as long
as there was one. -/
def Engine.served (e : Engine) (calls : List Call) : Engine :=
  { e with
    responses := e.responses.drop (calls.countP Call.isSearch)
    calls := e.calls ++ calls }

theorem Engine.served_nil (e : Engine) : e.served [] = e := by
  simp [served]

/-- Whatever the queue holds, a search takes its first item. -/
theorem Engine.exists_nextResponse (e : Engine) :
    ∃ result, e.nextResponse = (result, e.advanced []) := by
  cases hscript : e.responses with
  | nil => exact ⟨_, nextResponse_of_nil hscript⟩
  | cons item rest =>
    cases item with
    | response r => exact ⟨_, nextResponse_of_response hscript⟩
    | failure reason => exact ⟨_, nextResponse_of_failure hscript⟩

theorem Engine.advanced_noted {e : Engine} {call : Call} (h : call.isSearch = true) :
    (e.noted call).advanced [] = e.served [call] := by
  simp [advanced, noted, served, h]

/-! ### What happens while a request is dealt with -/

/-- A measurement that is not of how an operation ended, or of how long it took. -/
def Measurement.isInner : Measurement → Bool
  | .operation .. | .error .. | .latency _ => false
  | _ => true

namespace Outcome

variable {α β : Type}

def map (f : α → β) : Outcome α → Outcome β
  | .ok a => .ok (f a)
  | .error e => .error e
  | .cancelled => .cancelled

/-- The count that a stream ended with. -/
def counted : Outcome (Option Nat) → List Nat
  | .ok (some n) => [n]
  | _ => []

theorem eq_ok_of_map_some {outcome : Outcome Nat} {n : Nat}
    (h : outcome.map some = .ok (some n)) : outcome = .ok n := by
  cases outcome with
  | ok m =>
    obtain rfl := Option.some.inj (Outcome.ok.inj h)
    rfl
  | _ => cases h

theorem map_map {γ : Type} (f : α → β) (g : β → γ) (outcome : Outcome α) :
    (outcome.map f).map g = outcome.map fun a => g (f a) := by
  cases outcome <;> rfl

theorem measurementsOf_map (op : StoreOperation) (f : α → β) (outcome : Outcome α) :
    Action.measurementsOf op (outcome.map f) = Action.measurementsOf op outcome := by
  cases outcome <;> rfl

end Outcome

/-- Between two states of the host these calls have been made and answered, and these measurements
taken: scrolls that were opened are closed; there is a round for each continuation and a release,
with its count and its status, for each release; and a success of a stream is measured. -/
structure Balanced (before : Host) (outcome : Outcome (Option Nat)) (after : Host)
    (calls : List Call) (measured : List Measurement) : Prop where
  engine_eq : after.engine = before.engine.served calls
  log_eq : after.log = before.log ++ measured
  ended : outcome ≠ .cancelled
  inner : ∀ m ∈ measured, m.isInner = true
  opened : measured.count .scrollOpened = measured.count .scrollClosed
  rounds : measured.count .scrollRound = calls.countP Call.isContinuation
  releases : measured.filterMap Measurement.release? =
    (calls.filterMap Call.released?).map fun ids => (ids.length, !before.engine.refusesRelease)
  records : measured.filterMap Measurement.records? = outcome.counted

theorem balanced_error (h : Host) (e : StoreError) : Balanced h (.error e) h [] [] := by
  constructor <;> simp [Engine.served_nil, Outcome.counted]

/-! ### Streams -/

theorem CursorSet.mem_releaseMeasured {ids : List String} {succeeded : Bool} {m : Measurement}
    (h : m ∈ releaseMeasured ids succeeded) : m = .cursorRelease ids.length succeeded := by
  unfold releaseMeasured at h
  split at h
  · cases h
  · exact List.mem_singleton.mp h

theorem Streamed.mem_measured {α : Type} {result : Streamed α} {m : Measurement}
    (h : m ∈ result.measured) : ∃ n, m = .scrollRecords n := by
  obtain ⟨outcome, records⟩ := result
  cases outcome with
  | ok n => exact ⟨n, List.mem_singleton.mp h⟩
  | _ => cases h

section FilterMap

variable {α β : Type} {f : Measurement → Option β}

theorem CursorSet.filterMap_releaseMeasured (h : ∀ n ok, f (.cursorRelease n ok) = none)
    (ids : List String) (succeeded : Bool) : (releaseMeasured ids succeeded).filterMap f = [] := by
  rw [List.filterMap_eq_nil_iff]
  intro m hm
  rw [mem_releaseMeasured hm, h]

theorem Streamed.filterMap_measured (h : ∀ n, f (.scrollRecords n) = none) (result : Streamed α) :
    result.measured.filterMap f = [] := by
  rw [List.filterMap_eq_nil_iff]
  intro m hm
  obtain ⟨n, rfl⟩ := mem_measured hm
  exact h n

end FilterMap

namespace Course

variable {α β : Type}

theorem count_measuredFrom (pages : List (SearchPage α)) (asked : List String) :
    (measuredFrom pages asked).count .scrollRound = asked.length := by
  induction pages, asked using measuredFrom.induct with
  | case1 asked => simp [measuredFrom, List.map_const']
  | case2 page pages ih => simpa [measuredFrom] using ih
  | case3 page pages cursor asked ih => simpa [measuredFrom] using ih

theorem filterMap_measuredFrom (pages : List (SearchPage α)) (asked : List String) :
    (measuredFrom pages asked).filterMap Measurement.hits? =
      pages.map fun page => page.records.length := by
  induction pages, asked using measuredFrom.induct with
  | case1 asked => simp [measuredFrom, Measurement.hits?]
  | case2 page pages ih => simpa [measuredFrom, List.filterMap_cons, Measurement.hits?] using ih
  | case3 page pages cursor asked ih =>
    simpa [measuredFrom, List.filterMap_cons, Measurement.hits?] using ih

/-- Nothing is measured of pages and continuations but hits and rounds. -/
theorem mem_measuredFrom {pages : List (SearchPage α)} {asked : List String} {m : Measurement}
    (h : m ∈ measuredFrom pages asked) : m = .scrollRound ∨ ∃ n, m = .pageHits n := by
  induction pages, asked using measuredFrom.induct with
  | case1 asked =>
    obtain ⟨cursor, -, rfl⟩ := List.mem_map.mp h
    exact .inl rfl
  | case2 page pages ih =>
    rcases List.mem_cons.mp h with rfl | h
    · exact .inr ⟨_, rfl⟩
    · exact ih h
  | case3 page pages cursor asked ih =>
    rcases List.mem_cons.mp h with rfl | h
    · exact .inr ⟨_, rfl⟩
    rcases List.mem_cons.mp h with rfl | h
    · exact .inl rfl
    · exact ih h

theorem filterMap_measuredFrom_eq_nil {f : Measurement → Option β}
    (hround : f .scrollRound = none) (hhits : ∀ n, f (.pageHits n) = none)
    (pages : List (SearchPage α)) (asked : List String) :
    (measuredFrom pages asked).filterMap f = [] := by
  rw [List.filterMap_eq_nil_iff]
  intro m hm
  rcases mem_measuredFrom hm with rfl | ⟨n, rfl⟩
  · exact hround
  · exact hhits n

theorem count_measuredFrom_eq_zero {m : Measurement} (hround : m ≠ .scrollRound)
    (hhits : ∀ n, m ≠ .pageHits n) (pages : List (SearchPage α)) (asked : List String) :
    (measuredFrom pages asked).count m = 0 := by
  rw [List.count_eq_zero]
  intro hm
  rcases mem_measuredFrom hm with h | ⟨n, h⟩
  · exact hround h
  · exact hhits n h

theorem settled_eq_served (c : Course α) {first : Call} (hfirst : first.isSearch = true)
    (e : Engine) :
    c.settled first e = e.served (first :: c.asked.map .getScroll ++
      CursorSet.releaseCalls c.cursors.eraseDups) := by
  rw [settled, Engine.served, countP_sessionCalls (fun _ => rfl) (fun _ => rfl), if_pos hfirst]
  simp

theorem inner_logged (c : Course α) (stop : List α → Bool) (released : Bool) :
    ∀ m ∈ c.logged stop released, m.isInner = true := by
  intro m hm
  simp only [logged, List.cons_append, List.mem_cons, List.mem_append] at hm
  rcases hm with rfl | (hm | hm) | rfl | hm
  · rfl
  · rcases mem_measuredFrom hm with rfl | ⟨n, rfl⟩ <;> rfl
  · obtain rfl := CursorSet.mem_releaseMeasured hm
    rfl
  · rfl
  · obtain ⟨n, rfl⟩ := Streamed.mem_measured hm
    rfl

theorem count_logged {m : Measurement} (hrelease : ∀ n ok, m ≠ .cursorRelease n ok)
    (hrecords : ∀ n, m ≠ .scrollRecords n) (c : Course α) (stop : List α → Bool)
    (released : Bool) :
    (c.logged stop released).count m =
      [.scrollOpened, .scrollClosed].count m + c.measured.count m := by
  have hreleased : (CursorSet.releaseMeasured c.cursors.eraseDups released).count m = 0 :=
    List.count_eq_zero.mpr fun hm => hrelease _ _ (CursorSet.mem_releaseMeasured hm)
  have hended : (Streamed.ofEnding c.ending (cutAfter stop c.records)).measured.count m = 0 :=
    List.count_eq_zero.mpr fun hm => (Streamed.mem_measured hm).elim hrecords
  simp only [logged, List.cons_append, List.count_cons, List.count_append, List.count_nil,
    hreleased, hended]
  omega

theorem filterMap_logged {f : Measurement → Option β} (hopened : f .scrollOpened = none)
    (hclosed : f .scrollClosed = none) (c : Course α) (stop : List α → Bool) (released : Bool) :
    (c.logged stop released).filterMap f =
      c.measured.filterMap f ++
        ((CursorSet.releaseMeasured c.cursors.eraseDups released).filterMap f ++
          (Streamed.ofEnding c.ending (cutAfter stop c.records)).measured.filterMap f) := by
  simp [logged, hopened, hclosed]

theorem filterMap_measured_logged (c : Course α) (stop : List α → Bool) (released : Bool) :
    (c.logged stop released).filterMap Measurement.hits? =
      c.pages.map fun page => page.records.length := by
  rw [filterMap_logged rfl rfl, measured, filterMap_measuredFrom,
    CursorSet.filterMap_releaseMeasured fun _ _ => rfl, Streamed.filterMap_measured fun _ => rfl]
  simp

theorem balanced_logged (c : Course α) (stop : List α → Bool) (h : Host) (folder : Folder)
    {first : Call} (hfirst : first.isSearch = true) (hcontinues : first.isContinuation = false)
    (hreleases : first.released? = none) :
    Balanced h ((Streamed.ofEnding c.ending (cutAfter stop c.records)).outcome.map some)
      ⟨c.settled first h.engine, h.log ++ c.logged stop (!h.engine.refusesRelease), folder⟩
      (first :: c.asked.map .getScroll ++ CursorSet.releaseCalls c.cursors.eraseDups)
      (c.logged stop (!h.engine.refusesRelease)) := by
  constructor
  case engine_eq => exact c.settled_eq_served hfirst h.engine
  case log_eq => rfl
  case ended => cases c.ending <;> simp [Streamed.ofEnding, Outcome.map]
  case inner => exact c.inner_logged stop _
  case opened =>
    rw [count_logged (by simp) (by simp), count_logged (by simp) (by simp), measured,
      count_measuredFrom_eq_zero (by simp) (by simp),
      count_measuredFrom_eq_zero (by simp) (by simp)]
    decide
  case rounds =>
    rw [count_logged (by simp) (by simp), countP_sessionCalls (fun _ => rfl) (fun _ => rfl),
      hcontinues, measured, count_measuredFrom]
    simp
  case releases =>
    have hasked : (c.asked.map Call.getScroll).filterMap Call.released? = [] := by
      simp [Call.released?]
    rw [filterMap_logged rfl rfl, measured, filterMap_measuredFrom_eq_nil rfl (fun _ => rfl),
      Streamed.filterMap_measured fun _ => rfl, List.append_nil, List.nil_append, List.cons_append,
      List.filterMap_cons_none hreleases, List.filterMap_append, hasked, List.nil_append]
    unfold CursorSet.releaseMeasured CursorSet.releaseCalls
    split <;> rfl
  case records =>
    rw [filterMap_logged rfl rfl, measured, filterMap_measuredFrom_eq_nil rfl (fun _ => rfl),
      CursorSet.filterMap_releaseMeasured fun _ _ => rfl, List.nil_append, List.nil_append]
    cases c.ending <;> rfl

end Course

/-- A consumer that does not stop at what it is handed out is handed out everything. -/
theorem cutAfter_of_unbroken {α : Type} {stop : List α → Bool} {records : List α}
    (h : ∀ first, first ≠ [] → first <+: cutAfter stop records → stop first = false) :
    cutAfter stop records = records := by
  cases hfound : records.inits.tail.find? stop with
  | none => rw [cutAfter, hfound, Option.getD_none]
  | some first =>
    have hcut : cutAfter stop records = first := by
      rw [cutAfter, hfound, Option.getD_some]
    have hsome : first ≠ [] := by
      rintro rfl
      have hmem := List.mem_of_find?_eq_some hfound
      cases records <;> simp at hmem
    have hgoes := h first hsome (hcut ▸ List.prefix_refl _)
    rw [List.find?_some hfound] at hgoes
    cases hgoes

theorem Balanced.after_queryBytes {h h' : Host} {n : Nat} {outcome : Outcome (Option Nat)}
    {calls : List Call} {measured : List Measurement}
    (hbalanced : Balanced (h.record (.queryBytes n)) outcome h' calls measured) :
    Balanced h outcome h' calls (.queryBytes n :: measured) where
  engine_eq := hbalanced.engine_eq
  log_eq := hbalanced.log_eq.trans (List.append_assoc _ _ _)
  ended := hbalanced.ended
  inner := List.forall_mem_cons.mpr ⟨rfl, hbalanced.inner⟩
  opened := by simpa using hbalanced.opened
  rounds := by simpa using hbalanced.rounds
  releases := hbalanced.releases
  records := hbalanced.records

end DocumentSearch
