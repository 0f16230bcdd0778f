import DocumentSearch.Engine.Host
import Mathlib.Data.List.Count

/-!
# What meters show

A meter shows the sum of what has been measured for its series. Readings are added where their
series stands, and series are kept in their order, so no series stands twice and none is lost; and
as a series has readings of one kind only, what it shows of two logs is the sum of what it shows of
each. Of every series that searches write to it follows what it shows of a log: how often something
is in it, or which samples are.
-/

namespace DocumentSearch

/-! ### Readings are added to their series -/

namespace Series

def key (s : Series) : List String := s.name :: s.labels

theorem key_injective {a b : Series} (h : a.key = b.key) : a = b := by
  obtain ⟨name, labels⟩ := a
  obtain ⟨name', labels'⟩ := b
  obtain ⟨rfl, rfl⟩ := List.cons.inj h
  rfl

theorem precedes_iff {a b : Series} : a.precedes b = true ↔ a.key < b.key := by
  simp [precedes, key]

theorem ne_of_precedes {a b : Series} (h : a.precedes b = true) : a ≠ b := by
  rintro rfl
  exact List.lt_irrefl _ (precedes_iff.mp h)

theorem precedes_trans {a b c : Series} (hab : a.precedes b = true) (hbc : b.precedes c = true) :
    a.precedes c = true :=
  precedes_iff.mpr (List.lt_trans (precedes_iff.mp hab) (precedes_iff.mp hbc))

theorem precedes_of_not {a b : Series} (hne : a ≠ b) (h : ¬ b.precedes a = true) :
    a.precedes b = true := by
  rw [precedes_iff] at h ⊢
  rcases List.le_iff_lt_or_eq.mp (List.not_lt.mp h) with hlt | heq
  · exact hlt
  · exact absurd (key_injective heq) hne

end Series

/-- What a meter can be. -/
inductive Meter.Kind where
  | counter
  | gauge
  | histogram
  | durations
  deriving DecidableEq, Repr

def Meter.kind : Meter → Meter.Kind
  | .counter _ => .counter
  | .gauge _ => .gauge
  | .histogram _ => .histogram
  | .durations _ => .durations

/-- What the meter of a series is: its name says so. -/
def Series.kind (s : Series) : Meter.Kind :=
  if s.name = "docstore_open_scrolls" then .gauge
  else if s.name = "docstore_operation_seconds" then .durations
  else if s.name ∈ ["docstore_query_bytes", "docstore_page_hits", "docstore_scroll_records",
    "docstore_cursors_released"] then .histogram
  else .counter

theorem kind_of_mem_readings {m : Measurement} {e : Series × Meter} (h : e ∈ m.readings) :
    e.2.kind = e.1.kind := by
  cases m <;> simp only [Measurement.readings, List.mem_cons, List.not_mem_nil, or_false] at h
  case cursorRelease => rcases h with rfl | rfl <;> rfl
  all_goals
    subst h
    rfl

theorem Meter.kind_add (a b : Meter) : (a.add b).kind = b.kind := by
  cases a <;> cases b <;> rfl

/-- Meters in their order, each of the kind that its series has. -/
structure Ordered (ms : List (Series × Meter)) : Prop where
  sorted : ms.Pairwise fun a b => a.1.precedes b.1 = true
  kinds : ∀ e ∈ ms, e.2.kind = e.1.kind

section Readings

variable {s other : Series} {r : Meter} {ms : List (Series × Meter)}

theorem series_of_mem_addReading {e : Series × Meter} (h : e ∈ addReading s r ms) :
    e.1 = s ∨ e ∈ ms := by
  induction ms with
  | nil => exact .inl (congrArg Prod.fst (List.mem_singleton.mp h))
  | cons first rest ih =>
    rw [addReading] at h
    split at h
    · rcases List.mem_cons.mp h with rfl | h
      · exact .inl rfl
      · exact .inr (List.mem_cons_of_mem first h)
    split at h
    · rcases List.mem_cons.mp h with rfl | h
      · exact .inl rfl
      · exact .inr h
    · rcases List.mem_cons.mp h with rfl | h
      · exact .inr List.mem_cons_self
      · exact (ih h).imp_right (List.mem_cons_of_mem first)

theorem Ordered.addReading (h : Ordered ms) (hr : r.kind = s.kind) :
    Ordered (addReading s r ms) := by
  obtain ⟨hsorted, hkinds⟩ := h
  induction ms with
  | nil => exact ⟨List.pairwise_singleton _ _, List.forall_mem_singleton.mpr hr⟩
  | cons first rest ih =>
    obtain ⟨hfirst, hrest⟩ := List.pairwise_cons.mp hsorted
    obtain ⟨hkind, hothers⟩ := List.forall_mem_cons.mp hkinds
    rw [DocumentSearch.addReading]
    split
    next heq =>
      subst heq
      refine ⟨List.pairwise_cons.mpr ⟨hfirst, hrest⟩, List.forall_mem_cons.mpr ⟨?_, hothers⟩⟩
      exact (Meter.kind_add _ r).trans hr
    split
    next hbefore =>
      refine ⟨List.pairwise_cons.mpr ⟨?_, hsorted⟩, List.forall_mem_cons.mpr ⟨hr, hkinds⟩⟩
      refine List.forall_mem_cons.mpr ⟨hbefore, fun e he => ?_⟩
      exact Series.precedes_trans hbefore (hfirst e he)
    next hne hnot =>
      obtain ⟨hsorted', hkinds'⟩ := ih hrest hothers
      refine ⟨List.pairwise_cons.mpr ⟨fun e he => ?_, hsorted'⟩,
        List.forall_mem_cons.mpr ⟨hkind, hkinds'⟩⟩
      rcases series_of_mem_addReading he with heq | he
      · rw [heq]
        exact Series.precedes_of_not hne hnot
      · exact hfirst e he

theorem lookup_cons_eq (e : Series × Meter) :
    (e :: ms).lookup s = if s = e.1 then some e.2 else ms.lookup s := by
  obtain ⟨s', r'⟩ := e
  rw [List.lookup_cons]
  by_cases h : s = s'
  · simp [h]
  · simp [h, beq_eq_false_iff_ne.mpr h]

theorem lookup_cons_ne {e : Series × Meter} (h : s ≠ e.1) :
    (e :: ms).lookup s = ms.lookup s := by
  rw [lookup_cons_eq, if_neg h]

theorem lookup_eq_none_of_precedes (h : ∀ e ∈ ms, s.precedes e.1 = true) :
    ms.lookup s = none := by
  induction ms with
  | nil => rfl
  | cons e rest ih =>
    obtain ⟨he, hrest⟩ := List.forall_mem_cons.mp h
    rw [lookup_cons_ne (Series.ne_of_precedes he), ih hrest]

/-- A reading goes to its series, and to no other. -/
theorem lookup_addReading (hsorted : ms.Pairwise fun a b => a.1.precedes b.1 = true) :
    (addReading s r ms).lookup other =
      if other = s then some ((ms.lookup s).elim r fun r' => r'.add r) else ms.lookup other := by
  induction ms with
  | nil =>
    by_cases heq : other = s
    · simp [addReading, heq]
    · rw [addReading, lookup_cons_ne heq, if_neg heq]
  | cons first rest ih =>
    obtain ⟨s', r'⟩ := first
    obtain ⟨hfirst, hrest⟩ := List.pairwise_cons.mp hsorted
    rw [addReading]
    by_cases hsame : s' = s
    · subst hsame
      rw [if_pos rfl]
      by_cases heq : other = s'
      · subst heq
        simp
      · rw [if_neg heq, lookup_cons_ne heq, lookup_cons_ne heq]
    rw [if_neg hsame]
    split
    next hbefore =>
      -- All the series from here on come after this one, so it has not been read before.
      have hnone : List.lookup s ((s', r') :: rest) = none := by
        refine lookup_eq_none_of_precedes (List.forall_mem_cons.mpr ⟨hbefore, fun e he => ?_⟩)
        exact Series.precedes_trans hbefore (hfirst e he)
      rw [hnone]
      by_cases heq : other = s
      · simp [heq]
      · rw [lookup_cons_ne heq, if_neg heq]
    next =>
      rw [lookup_cons_ne (e := (s', r')) (Ne.symm hsame)]
      by_cases hfound : other = s'
      · subst hfound
        rw [if_neg hsame]
        simp
      · rw [lookup_cons_ne hfound, lookup_cons_ne hfound, ih hrest]

end Readings

/-! ### Meters of logs -/

def addAllReadings (ms rs : List (Series × Meter)) : List (Series × Meter) :=
  rs.foldl (fun ms e => addReading e.1 e.2 ms) ms

theorem meters_append (log others : List Measurement) :
    meters (log ++ others) = addAllReadings (meters log) (others.flatMap Measurement.readings) := by
  rw [meters, List.flatMap_append, List.foldl_append]
  rfl

theorem Ordered.addAllReadings {ms rs : List (Series × Meter)} (h : Ordered ms)
    (hrs : ∀ e ∈ rs, e.2.kind = e.1.kind) : Ordered (addAllReadings ms rs) := by
  induction rs generalizing ms with
  | nil => exact h
  | cons e rest ih =>
    obtain ⟨he, hrest⟩ := List.forall_mem_cons.mp hrs
    exact ih (h.addReading he) hrest

theorem kinds_of_log {log : List Measurement} :
    ∀ e ∈ log.flatMap Measurement.readings, e.2.kind = e.1.kind := by
  intro e he
  obtain ⟨m, -, he⟩ := List.mem_flatMap.mp he
  exact kind_of_mem_readings he

theorem ordered_meters (log : List Measurement) : Ordered (meters log) :=
  Ordered.addAllReadings ⟨.nil, by simp⟩ kinds_of_log

/-- What a log shows for a series, as `f` reads a meter; `none` stands for a series without
readings. -/
def showing {α : Type} (f : Meter → α) (none : α) (log : List Measurement) (s : Series) : α :=
  ((meters log).lookup s).elim none f

section Showing

variable {α : Type} {f : Meter → α} {zero : α} {op : α → α → α} [Std.Associative op]
  [Std.LawfulIdentity op zero]

omit [Std.Associative op] in
theorem elim_lookup_addReading
    (hadd : ∀ a b : Meter, a.kind = b.kind → f (a.add b) = op (f a) (f b))
    {ms : List (Series × Meter)} (hms : Ordered ms) {e : Series × Meter}
    (he : e.2.kind = e.1.kind) (s : Series) :
    ((addReading e.1 e.2 ms).lookup s).elim zero f =
      op ((ms.lookup s).elim zero f) ((List.lookup s [e]).elim zero f) := by
  rw [lookup_addReading hms.sorted]
  by_cases heq : s = e.1
  · subst heq
    have hself : List.lookup e.1 [e] = some e.2 := List.lookup_cons_self
    rw [if_pos rfl, hself]
    cases hread : ms.lookup e.1 with
    | none => exact (Std.LawfulLeftIdentity.left_id _).symm
    | some r =>
      obtain ⟨before, after, rfl, -⟩ := List.lookup_eq_some_iff.mp hread
      have hmem : (e.1, r) ∈ before ++ (e.1, r) :: after :=
        List.mem_append_right _ List.mem_cons_self
      exact hadd r e.2 ((hms.kinds _ hmem).trans he.symm)
  · rw [if_neg heq, lookup_cons_ne heq]
    exact (Std.LawfulRightIdentity.right_id _).symm

theorem elim_lookup_addAllReadings
    (hadd : ∀ a b : Meter, a.kind = b.kind → f (a.add b) = op (f a) (f b))
    {ms rs : List (Series × Meter)} (hms : Ordered ms) (hrs : ∀ e ∈ rs, e.2.kind = e.1.kind)
    (s : Series) :
    ((addAllReadings ms rs).lookup s).elim zero f =
      op ((ms.lookup s).elim zero f) (((addAllReadings [] rs).lookup s).elim zero f) := by
  induction rs generalizing ms with
  | nil => exact (Std.LawfulRightIdentity.right_id _).symm
  | cons e rest ih =>
    obtain ⟨he, hrest⟩ := List.forall_mem_cons.mp hrs
    have halone : Ordered [e] := ⟨List.pairwise_singleton _ _, List.forall_mem_singleton.mpr he⟩
    have hfirst : ((addReading e.1 e.2 ms).lookup s).elim zero f =
        op ((ms.lookup s).elim zero f) ((List.lookup s [e]).elim zero f) :=
      elim_lookup_addReading hadd hms he s
    have hcons (ms : List (Series × Meter)) :
        addAllReadings ms (e :: rest) = addAllReadings (addReading e.1 e.2 ms) rest := rfl
    have hassoc (x y z : α) : op (op x y) z = op x (op y z) := Std.Associative.assoc x y z
    rw [hcons, hcons, ih (hms.addReading he) hrest, hfirst, hassoc]
    exact congrArg _ (ih halone hrest).symm

theorem showing_append (hadd : ∀ a b : Meter, a.kind = b.kind → f (a.add b) = op (f a) (f b))
    (log others : List Measurement) (s : Series) :
    showing f zero (log ++ others) s = op (showing f zero log s) (showing f zero others s) := by
  rw [showing, meters_append, elim_lookup_addAllReadings hadd (ordered_meters log) kinds_of_log]
  rfl

end Showing

/-! ### Counts, levels and samples -/

namespace Meter

def number : Meter → Nat
  | .counter n | .durations n => n
  | _ => 0

def level : Meter → Int
  | .gauge a => a
  | _ => 0

def samples : Meter → List Nat
  | .histogram xs => xs
  | _ => []

theorem number_add {a b : Meter} (h : a.kind = b.kind) :
    (a.add b).number = a.number + b.number := by
  cases a <;> cases b <;> first | rfl | cases h

theorem level_add {a b : Meter} (h : a.kind = b.kind) : (a.add b).level = a.level + b.level := by
  cases a <;> cases b <;> first | rfl | cases h

theorem samples_add {a b : Meter} (h : a.kind = b.kind) :
    (a.add b).samples = a.samples ++ b.samples := by
  cases a <;> cases b <;> first | rfl | cases h

end Meter

/-- What a counter shows, or how many durations were taken. -/
def total (log : List Measurement) (s : Series) : Nat := showing Meter.number 0 log s

/-- What a gauge shows. -/
def level (log : List Measurement) (s : Series) : Int := showing Meter.level 0 log s

/-- The samples that were taken for a histogram, in order. -/
def samples (log : List Measurement) (s : Series) : List Nat := showing Meter.samples [] log s

theorem total_append (log others : List Measurement) (s : Series) :
    total (log ++ others) s = total log s + total others s :=
  showing_append (fun _ _ => Meter.number_add) log others s

theorem level_append (log others : List Measurement) (s : Series) :
    level (log ++ others) s = level log s + level others s :=
  showing_append (fun _ _ => Meter.level_add) log others s

theorem samples_append (log others : List Measurement) (s : Series) :
    samples (log ++ others) s = samples log s ++ samples others s :=
  showing_append (fun _ _ => Meter.samples_add) log others s

theorem total_eq_countP {s : Series} {p : Measurement → Bool}
    (h : ∀ m, total [m] s = if p m then 1 else 0) (log : List Measurement) :
    total log s = log.countP p := by
  induction log with
  | nil => rfl
  | cons m rest ih =>
    rw [← List.singleton_append, total_append, h, ih, List.singleton_append, List.countP_cons,
      Nat.add_comm]

theorem samples_eq_filterMap {s : Series} {sample : Measurement → Option Nat}
    (h : ∀ m, samples [m] s = (sample m).toList) (log : List Measurement) :
    samples log s = log.filterMap sample := by
  induction log with
  | nil => rfl
  | cons m rest ih =>
    rw [← List.singleton_append, samples_append, h, ih, List.singleton_append,
      List.filterMap_cons]
    cases sample m <;> rfl

/-! ### The series of searches -/

namespace Series

def operations (op : StoreOperation) (succeeded : Bool) : Series :=
  ⟨"docstore_operations_total",
    ["operation=" ++ op.name, statusLabel "success" "error" succeeded]⟩

def errors (op : StoreOperation) (kind : String) : Series :=
  ⟨"docstore_errors_total", ["kind=" ++ kind, "operation=" ++ op.name]⟩

def latencies (op : StoreOperation) : Series :=
  ⟨"docstore_operation_seconds", ["operation=" ++ op.name]⟩

def openScrolls : Series := ⟨"docstore_open_scrolls", []⟩

def scrollRounds : Series := ⟨"docstore_scroll_rounds_total", []⟩

def cursorReleases (succeeded : Bool) : Series :=
  ⟨"docstore_cursor_releases_total", [statusLabel "success" "failure" succeeded]⟩

def cursorsReleased : Series := ⟨"docstore_cursors_released", []⟩

def scrollRecords : Series := ⟨"docstore_scroll_records", []⟩

def pageHits : Series := ⟨"docstore_page_hits", []⟩

end Series

theorem StoreOperation.name_injective {op op' : StoreOperation} (h : op.name = op'.name) :
    op = op' := by
  cases op <;> cases op' <;> simp [name] at h ⊢

theorem statusLabel_injective {success failure : String} (hne : success ≠ failure) {ok ok' : Bool}
    (h : statusLabel success failure ok = statusLabel success failure ok') : ok = ok' := by
  rw [statusLabel, statusLabel, String.append_right_inj] at h
  cases ok <;> cases ok' <;> simp [hne, hne.symm] at h ⊢

namespace Series

theorem operations_inj {op op' : StoreOperation} {ok ok' : Bool}
    (h : operations op ok = operations op' ok') : op = op' ∧ ok = ok' := by
  simp only [operations, mk.injEq, List.cons.injEq, String.append_right_inj, and_true,
    true_and] at h
  exact ⟨StoreOperation.name_injective h.1, statusLabel_injective (by decide) h.2⟩

theorem errors_inj {op op' : StoreOperation} {kind kind' : String}
    (h : errors op kind = errors op' kind') : op = op' ∧ kind = kind' := by
  simp only [errors, mk.injEq, List.cons.injEq, String.append_right_inj, and_true,
    true_and] at h
  exact ⟨StoreOperation.name_injective h.2, h.1⟩

theorem latencies_inj {op op' : StoreOperation} (h : latencies op = latencies op') : op = op' := by
  simp only [latencies, mk.injEq, List.cons.injEq, String.append_right_inj, and_true,
    true_and] at h
  exact StoreOperation.name_injective h

theorem cursorReleases_inj {ok ok' : Bool} (h : cursorReleases ok = cursorReleases ok') :
    ok = ok' := by
  simp only [cursorReleases, mk.injEq, List.cons.injEq, and_true, true_and] at h
  exact statusLabel_injective (by decide) h

theorem cursorReleases_ne (ok : Bool) : cursorReleases ok ≠ cursorsReleased := by
  cases ok <;> decide

end Series

theorem meters_singleton (m : Measurement) : meters [m] = m.readings := by
  cases m with
  | cursorRelease n ok =>
    have hafter : Series.cursorsReleased.precedes (.cursorReleases ok) = false := by
      cases ok <;> decide
    show addReading .cursorsReleased (.histogram [n]) [(.cursorReleases ok, .counter 1)] = _
    rw [addReading, if_neg (Series.cursorReleases_ne ok), hafter]
    rfl
  | _ => rfl

theorem showing_singleton {α : Type} (f : Meter → α) (none : α) (m : Measurement) (s : Series) :
    showing f none [m] s = (m.readings.lookup s).elim none f := by
  rw [showing, meters_singleton]

theorem total_singleton (m : Measurement) (s : Series) :
    total [m] s = (m.readings.lookup s).elim 0 Meter.number := showing_singleton _ _ m s

theorem samples_singleton (m : Measurement) (s : Series) :
    samples [m] s = (m.readings.lookup s).elim [] Meter.samples := showing_singleton _ _ m s

/-- A series with readings of one measurement only, which count one each, shows how often this was
measured. -/
theorem total_eq_count {s : Series} {m : Measurement} {r : Meter} (hself : m.readings = [(s, r)])
    (hone : r.number = 1) (hother : ∀ m', s ∈ m'.readings.map Prod.fst → m' = m)
    (log : List Measurement) : total log s = log.count m := by
  refine total_eq_countP (fun m' => ?_) log
  rw [total_singleton]
  by_cases h : m' = m
  · rw [h, hself, List.lookup_cons_self, beq_self_eq_true, if_pos rfl]
    exact hone
  · have hnone : m'.readings.lookup s = none := by
      rw [List.lookup_eq_none_iff]
      intro e he
      rw [bne_iff_ne]
      rintro rfl
      exact h (hother m' (List.mem_map_of_mem he))
    rw [hnone, if_neg (by simpa using h)]
    rfl

section Dictionary

variable (log : List Measurement) (op : StoreOperation)

/-- The counter of an operation with a status shows how many ended so. -/
theorem total_operations (ok : Bool) :
    total log (.operations op ok) = log.count (.operation op ok) := by
  refine total_eq_count rfl rfl (fun m hm => ?_) log
  cases m with
  | operation op' ok' =>
    obtain ⟨rfl, rfl⟩ := Series.operations_inj (List.mem_singleton.mp hm)
    rfl
  | _ => simp [Measurement.readings, Series.operations] at hm

theorem total_errors (kind : String) :
    total log (.errors op kind) = log.count (.error op kind) := by
  refine total_eq_count rfl rfl (fun m hm => ?_) log
  cases m with
  | error op' kind' =>
    obtain ⟨rfl, rfl⟩ := Series.errors_inj (List.mem_singleton.mp hm)
    rfl
  | _ => simp [Measurement.readings, Series.errors] at hm

/-- How many latencies were taken of an operation. -/
theorem total_latencies : total log (.latencies op) = log.count (.latency op) := by
  refine total_eq_count rfl rfl (fun m hm => ?_) log
  cases m with
  | latency op' =>
    obtain rfl := Series.latencies_inj (List.mem_singleton.mp hm)
    rfl
  | _ => simp [Measurement.readings, Series.latencies] at hm

theorem total_scrollRounds : total log .scrollRounds = log.count .scrollRound := by
  refine total_eq_count rfl rfl (fun m hm => ?_) log
  cases m with
  | scrollRound => rfl
  | _ => simp [Measurement.readings, Series.scrollRounds] at hm

/-- The releases that a log tells of, with the count of cursors and how each ended. -/
def Measurement.release? : Measurement → Option (Nat × Bool)
  | .cursorRelease n ok => some (n, ok)
  | _ => none

theorem total_cursorReleases (ok : Bool) :
    total log (.cursorReleases ok) =
      (log.filterMap Measurement.release?).countP fun r => r.2 = ok := by
  rw [List.countP_filterMap]
  refine total_eq_countP (fun m => ?_) log
  rw [total_singleton]
  cases m with
  | cursorRelease n ok' =>
    show (List.lookup _ [(Series.cursorReleases ok', Meter.counter 1),
      (.cursorsReleased, .histogram [n])]).elim 0 _ = _
    by_cases h : ok = ok'
    · subst h
      simp [Meter.number, Measurement.release?]
    · have hseries : Series.cursorReleases ok ≠ .cursorReleases ok' := fun heq =>
        h (Series.cursorReleases_inj heq)
      rw [lookup_cons_ne hseries, lookup_cons_ne (Series.cursorReleases_ne ok)]
      simp [Measurement.release?, Ne.symm h]
  | _ => simp [Measurement.readings, Series.cursorReleases, lookup_cons_eq, Measurement.release?]

theorem samples_cursorsReleased :
    samples log .cursorsReleased = (log.filterMap Measurement.release?).map Prod.fst := by
  rw [List.map_filterMap]
  refine samples_eq_filterMap (fun m => ?_) log
  rw [samples_singleton]
  cases m <;>
    simp [Measurement.readings, Series.cursorsReleased, lookup_cons_eq, Measurement.release?,
      Meter.samples]

def Measurement.records? : Measurement → Option Nat
  | .scrollRecords n => some n
  | _ => none

theorem samples_scrollRecords :
    samples log .scrollRecords = log.filterMap Measurement.records? := by
  refine samples_eq_filterMap (fun m => ?_) log
  rw [samples_singleton]
  cases m <;>
    simp [Measurement.readings, Series.scrollRecords, lookup_cons_eq, Measurement.records?,
      Meter.samples]

def Measurement.hits? : Measurement → Option Nat
  | .pageHits n => some n
  | _ => none

theorem samples_pageHits : samples log .pageHits = log.filterMap Measurement.hits? := by
  refine samples_eq_filterMap (fun m => ?_) log
  rw [samples_singleton]
  cases m <;>
    simp [Measurement.readings, Series.pageHits, lookup_cons_eq, Measurement.hits?,
      Meter.samples]

/-- The gauge of open scrolls shows how many more were opened than closed. -/
theorem level_openScrolls :
    level log .openScrolls = log.count .scrollOpened - log.count .scrollClosed := by
  induction log with
  | nil => rfl
  | cons m rest ih =>
    have hfirst : level [m] .openScrolls =
        [m].count .scrollOpened - [m].count .scrollClosed := by
      rw [level, showing_singleton]
      cases m <;> simp [Measurement.readings, Series.openScrolls, lookup_cons_eq, Meter.level]
    rw [← List.singleton_append, level_append, hfirst, ih, List.count_append, List.count_append]
    omega

end Dictionary

end DocumentSearch
