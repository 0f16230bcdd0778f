import DocumentSearch.Proofs.Store.Calling

/-!
# The account of a sequence of requests

What the meters show of a sequence of requests is what happened in it: how each request ended, and
which calls it made. One request is accounted for because dealing with it is balanced and is counted
and timed around that; accounts of one sequence after another add up.
-/

namespace DocumentSearch

def Outcome.isOk {α : Type} : Outcome α → Bool
  | .ok _ => true
  | _ => false

def Outcome.errorKind? {α : Type} : Outcome α → Option String
  | .error e => some e.kind
  | _ => none

/-- The cursors that were released for some visits, call by call. -/
def releasedIn (visits : List Visit) : List (List String) :=
  (visits.flatMap Visit.calls).filterMap Call.released?

/-- Between two logs the meters have grown by what happened in these visits: each is counted under
its operation with the status that it ended with, and under its error if it has one, and is timed
once; no more scrolls are open than before; there was a round for each continuation; each release
is counted under its status, with the number of its cursors; and of every stream that succeeded
there is a sample of its count. -/
structure Accounted (before after : List Measurement) (visits : List Visit) : Prop where
  operations : ∀ op ok, total after (.operations op ok) = total before (.operations op ok) +
    visits.countP fun v => v.request.operation = op && v.outcome.isOk = ok
  errors : ∀ op kind, total after (.errors op kind) = total before (.errors op kind) +
    visits.countP fun v => v.request.operation = op && v.outcome.errorKind? = some kind
  latencies : ∀ op, total after (.latencies op) = total before (.latencies op) +
    visits.countP fun v => v.request.operation = op
  openScrolls : level after .openScrolls = level before .openScrolls
  scrollRounds : total after .scrollRounds = total before .scrollRounds +
    (visits.flatMap Visit.calls).countP Call.isContinuation
  cursorReleases : ∀ ok, total after (.cursorReleases ok) = total before (.cursorReleases ok) +
    (releasedIn (visits.filter fun v => v.before.engine.refusesRelease = !ok)).length
  cursorsReleased : samples after .cursorsReleased = samples before .cursorsReleased ++
    (releasedIn visits).map List.length
  scrollRecords : samples after .scrollRecords = samples before .scrollRecords ++
    visits.flatMap fun v => v.outcome.counted

theorem releasedIn_append (visits others : List Visit) :
    releasedIn (visits ++ others) = releasedIn visits ++ releasedIn others := by
  simp [releasedIn]

theorem accounted_refl (log : List Measurement) : Accounted log log [] := by
  constructor <;> simp [releasedIn]

theorem Accounted.trans {first second third : List Measurement} {visits others : List Visit}
    (h : Accounted first second visits) (h' : Accounted second third others) :
    Accounted first third (visits ++ others) where
  operations op ok := by
    rw [h'.operations, h.operations, List.countP_append, Nat.add_assoc]
  errors op kind := by
    rw [h'.errors, h.errors, List.countP_append, Nat.add_assoc]
  latencies op := by
    rw [h'.latencies, h.latencies, List.countP_append, Nat.add_assoc]
  openScrolls := h'.openScrolls.trans h.openScrolls
  scrollRounds := by
    rw [h'.scrollRounds, h.scrollRounds, List.flatMap_append, List.countP_append, Nat.add_assoc]
  cursorReleases ok := by
    rw [h'.cursorReleases, h.cursorReleases, List.filter_append, releasedIn_append,
      List.length_append, Nat.add_assoc]
  cursorsReleased := by
    rw [h'.cursorsReleased, h.cursorsReleased, releasedIn_append, List.map_append,
      List.append_assoc]
  scrollRecords := by
    rw [h'.scrollRecords, h.scrollRecords, List.flatMap_append, List.append_assoc]

/-! ### One request -/

section Visits

variable {config : StoreConfig} {v : Visit} {measured : List Measurement}

theorem count_eq_zero_of_inner (h : ∀ m ∈ measured, m.isInner = true) {m : Measurement}
    (hm : m.isInner = false) : measured.count m = 0 := by
  rw [List.count_eq_zero]
  intro hmem
  rw [h m hmem] at hm
  cases hm

/-- What is measured of a visit when it has been dealt with. -/
def Visit.outer (v : Visit) : List Measurement :=
  Action.measurementsOf v.request.operation v.outcome ++ [.latency v.request.operation]

theorem not_isInner_of_mem_outer {m : Measurement} (h : m ∈ v.outer) : m.isInner = false := by
  rcases List.mem_append.mp h with h | h
  · cases houtcome : v.outcome <;> simp only [houtcome, Action.measurementsOf, List.mem_cons,
      List.not_mem_nil, or_false] at h
    · rw [h]
      rfl
    · rcases h with rfl | rfl <;> rfl
  · rw [List.mem_singleton.mp h]
    rfl

theorem filterMap_outer {β : Type} {f : Measurement → Option β}
    (h : ∀ m, m.isInner = false → f m = none) (v : Visit) : v.outer.filterMap f = [] := by
  rw [List.filterMap_eq_nil_iff]
  exact fun m hm => h m (not_isInner_of_mem_outer hm)

theorem release?_of_not_inner {m : Measurement} (h : m.isInner = false) : m.release? = none := by
  cases m <;> first | rfl | cases h

theorem records?_of_not_inner {m : Measurement} (h : m.isInner = false) : m.records? = none := by
  cases m <;> first | rfl | cases h

theorem count_outer_eq_zero {m : Measurement} (hm : m.isInner = true) (v : Visit) :
    v.outer.count m = 0 := by
  rw [List.count_eq_zero]
  intro hmem
  rw [not_isInner_of_mem_outer hmem] at hm
  cases hm

theorem count_outer_operation (hended : v.outcome ≠ .cancelled) (op : StoreOperation) (ok : Bool) :
    v.outer.count (.operation op ok) =
      [v].countP fun v => v.request.operation = op && v.outcome.isOk = ok := by
  rw [Visit.outer]
  cases houtcome : v.outcome with
  | cancelled => exact absurd houtcome hended
  | _ => cases ok <;> simp [Action.measurementsOf, List.count_cons, Outcome.isOk, houtcome]

theorem count_outer_error (v : Visit) (op : StoreOperation) (kind : String) :
    v.outer.count (.error op kind) =
      [v].countP fun v => v.request.operation = op && v.outcome.errorKind? = some kind := by
  rw [Visit.outer]
  cases houtcome : v.outcome <;>
    simp [Action.measurementsOf, List.count_cons, Outcome.errorKind?, houtcome]

theorem count_outer_latency (v : Visit) (op : StoreOperation) :
    v.outer.count (.latency op) = [v].countP fun v => v.request.operation = op := by
  rw [Visit.outer]
  cases v.outcome <;> simp [Action.measurementsOf, List.count_cons]

/-- All releases of a visit have the same status. -/
theorem countP_releases (v : Visit) (ok : Bool) :
    ((v.calls.filterMap Call.released?).map fun ids =>
        (ids.length, !v.before.engine.refusesRelease)).countP (fun r => r.2 = ok) =
      (releasedIn ([v].filter fun v => v.before.engine.refusesRelease = !ok)).length := by
  by_cases hstatus : v.before.engine.refusesRelease = !ok
  · rw [List.filter_cons_of_pos (by simpa using hstatus), List.filter_nil, releasedIn,
      List.flatMap_singleton]
    simp [List.countP_map, Function.comp_def, hstatus]
  · rw [List.filter_cons_of_neg (by simpa using hstatus), List.filter_nil]
    have hother : (!v.before.engine.refusesRelease) ≠ ok := fun h => hstatus (by simp [← h])
    simp [List.countP_map, Function.comp_def, hother, releasedIn]

theorem log_visit (hv : v.Measured config measured) :
    v.after.log = v.before.log ++ (measured ++ v.outer) := by
  rw [hv.log_eq, Visit.outer, List.append_assoc, List.append_assoc]

theorem total_visit (hv : v.Measured config measured) (s : Series) :
    total v.after.log s = total v.before.log s + (total measured s + total v.outer s) := by
  rw [log_visit hv, total_append, total_append]

theorem samples_visit (hv : v.Measured config measured) (s : Series) :
    samples v.after.log s =
      samples v.before.log s ++ (samples measured s ++ samples v.outer s) := by
  rw [log_visit hv, samples_append, samples_append]

theorem accounted_visit (hv : v.Measured config measured) :
    Accounted v.before.log v.after.log [v] := by
  have hbalanced := hv.balanced
  constructor
  case operations =>
    intro op ok
    have hinner : measured.count (.operation op ok) = 0 :=
      count_eq_zero_of_inner hbalanced.inner rfl
    rw [total_visit hv, total_operations measured, hinner, total_operations v.outer,
      count_outer_operation hbalanced.ended, Nat.zero_add]
  case errors =>
    intro op kind
    have hinner : measured.count (.error op kind) = 0 :=
      count_eq_zero_of_inner hbalanced.inner rfl
    rw [total_visit hv, total_errors measured, hinner, total_errors v.outer, count_outer_error,
      Nat.zero_add]
  case latencies =>
    intro op
    have hinner : measured.count (.latency op) = 0 := count_eq_zero_of_inner hbalanced.inner rfl
    rw [total_visit hv, total_latencies measured, hinner, total_latencies v.outer,
      count_outer_latency, Nat.zero_add]
  case openScrolls =>
    rw [log_visit hv, level_append, level_append, level_openScrolls measured, hbalanced.opened,
      level_openScrolls v.outer, count_outer_eq_zero rfl, count_outer_eq_zero rfl]
    simp
  case scrollRounds =>
    rw [total_visit hv, total_scrollRounds measured, hbalanced.rounds, total_scrollRounds v.outer,
      count_outer_eq_zero rfl, List.flatMap_singleton, Nat.add_zero]
  case cursorReleases =>
    intro ok
    rw [total_visit hv, total_cursorReleases measured, hbalanced.releases,
      total_cursorReleases v.outer, filterMap_outer fun _ => release?_of_not_inner,
      List.countP_nil, Nat.add_zero, countP_releases]
  case cursorsReleased =>
    rw [samples_visit hv, samples_cursorsReleased measured, hbalanced.releases,
      samples_cursorsReleased v.outer, filterMap_outer fun _ => release?_of_not_inner, releasedIn,
      List.flatMap_singleton]
    simp [Function.comp_def]
  case scrollRecords =>
    rw [samples_visit hv, samples_scrollRecords measured, hbalanced.records,
      samples_scrollRecords v.outer, filterMap_outer fun _ => records?_of_not_inner,
      List.flatMap_singleton, List.append_nil]

/-- A stream that nobody breaks off hands out all the hits of the pages that are measured of it. -/
theorem hits_visit (hv : v.Measured config measured) {n : Nat} (hn : v.outcome = .ok (some n))
    (hunbroken : v.request.IsUnbroken config v.before) :
    ∃ hits, samples v.after.log .pageHits = samples v.before.log .pageHits ++ hits ∧
      hits.sum = n := by
  refine ⟨samples (measured ++ v.outer) .pageHits, ?_, ?_⟩
  · rw [log_visit hv, samples_append]
  · have houter : v.outer.filterMap Measurement.hits? = [] := by
      refine filterMap_outer (fun m h => ?_) v
      cases m <;> first | rfl | cases h
    rw [samples_append, samples_pageHits, samples_pageHits, houter, List.append_nil]
    exact hv.hits n hn hunbroken

end Visits

/-! ### Sequences of requests -/

/-- Everything that the meters show of a sequence of requests is accounted for, whatever the engine
answers with and whether it refuses to release cursors: the calls of the engine are those of the
visits, every request comes to an end, and the hits that are measured of a stream are those that it
hands out, if nobody breaks it off. -/
theorem visits_accounted (config : StoreConfig) (moves : List Move) {h : Host}
    (hplans : h.engine.plans = []) :
    let made := (visits config moves h).1
    let last := (visits config moves h).2
    Accounted h.log last.log made ∧
      last.engine.calls = h.engine.calls ++ made.flatMap Visit.calls ∧
      ∀ v ∈ made, v.outcome ≠ .cancelled ∧
        ∀ n, v.outcome = .ok (some n) → v.request.IsUnbroken config v.before →
          ∃ hits, samples v.after.log .pageHits = samples v.before.log .pageHits ++ hits ∧
            hits.sum = n := by
  refine ⟨?_, (inTurn_visits config moves hplans).calls_eq, ?_⟩
  · refine visits_induction (motive := fun _ h made last => Accounted h.log last.log made)
      (fun h => accounted_refl h.log) (fun _ _ _ _ _ hrest => hrest) ?_ moves hplans
    intro v measured rest others last hv hrest
    exact (accounted_visit hv).trans hrest
  · refine visits_induction (motive := fun _ _ made _ => ∀ v ∈ made, v.outcome ≠ .cancelled ∧
        ∀ n, v.outcome = .ok (some n) → v.request.IsUnbroken config v.before →
          ∃ hits, samples v.after.log .pageHits = samples v.before.log .pageHits ++ hits ∧
            hits.sum = n)
      (fun h => by simp) (fun _ _ _ _ _ hrest => hrest) ?_ moves hplans
    intro v measured rest others last hv hrest
    exact List.forall_mem_cons.mpr ⟨⟨hv.balanced.ended, fun _ => hits_visit hv⟩, hrest⟩

/-- The sources of three hits in two parts, then a list when there is nothing left but an empty
page, and a document that is not there. -/
def threeMoves : List Move :=
  [.ask (.eachRawSource allOrders fun _ => false), .arrange (.refuse true),
    .ask (.list allOrders), .ask (.byId allOrders.recordType (.text "7"))]

theorem visits_accounted_threeMoves :
    inParts.engine.plans = [] ∧
      let last := (visits twoRounds threeMoves inParts).2
      total last.log (.latencies .findEachRawSource) = 1 ∧
        total last.log (.latencies .getById) = 1 ∧ level last.log .openScrolls = 0 ∧
        ∃ v ∈ (visits twoRounds threeMoves inParts).1, v.outcome = .ok (some 3) ∧
          (samples v.after.log .pageHits).sum = 3 := by
  have hplans : inParts.engine.plans = [] := rfl
  obtain ⟨haccounted, -, hvisits⟩ := visits_accounted twoRounds threeMoves hplans
  refine ⟨hplans, ?_, ?_, ?_, ?_⟩
  · exact haccounted.latencies .findEachRawSource
  · exact haccounted.latencies .getById
  · exact haccounted.openScrolls
  · let v : Visit := (Request.eachRawSource allOrders fun _ => false).visit twoRounds inParts
    have hv : v ∈ (visits twoRounds threeMoves inParts).1 := List.mem_cons_self
    have hlimit : ∀ limit, twoRounds.maxScrollRounds = some limit →
        partPages.length ≤ limit := by
      simp [twoRounds, partPages]
    have hcompiled : allOrders.compile = .ok _ := rfl
    have hstream := Query.streamsAll_scroll
      (s := ⟨RawSource.read, fun _ => false, twoRounds.maxScrollRounds⟩) hcompiled (fun _ => rfl)
      hplans served_inParts hlimit rfl
    have hthree : v.outcome = .ok (some 3) := by
      show Outcome.map some _ = _
      exact congrArg (Outcome.map some) hstream.outcome_eq
    obtain ⟨-, hhits⟩ := hvisits v hv
    obtain ⟨hits, hsamples, hsum⟩ := hhits 3 hthree fun _ _ _ => rfl
    refine ⟨v, hv, hthree, ?_⟩
    rw [hsamples]
    exact hsum

end DocumentSearch
