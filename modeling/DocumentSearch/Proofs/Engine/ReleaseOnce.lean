import DocumentSearch.Proofs.Engine.Session
import Mathlib.Data.List.Nodup
import Mathlib.Data.List.TakeWhile

/-!
# A cursor set is released once

A cursor set decides in three places whether the engine is to be asked: by its flag, by whether it
is empty, and again when it is given up. Over any sequence of additions and releases, and with the
set given up at the end, the engine is asked at most once. `after_eq` says what the set and its host
have come to after any such sequence: the first release is the one that counts, what is added later
is kept and never released, and a set that was never released is released when it is given up. It
makes no difference whether the engine does as it is asked, as long as the call comes back.
-/

namespace DocumentSearch

/-! ### Calls that come back -/

namespace Engine

/-- No call for a release is going to stall. -/
def AnswersReleases (e : Engine) : Prop := (.clearScrollIds, .stall) ∉ e.plans

/-- Nothing is planned for calls for a release, so that all of them arrive. -/
def HearsReleases (e : Engine) : Prop := ∀ p ∈ e.plans, p.1 ≠ .clearScrollIds

theorem HearsReleases.answers {e : Engine} (h : e.HearsReleases) : e.AnswersReleases :=
  fun hmem => h _ hmem rfl

theorem nextPlan_ne_stall {m : Method} {plans : List (Method × Interruption)}
    (h : (m, .stall) ∉ plans) : (nextPlan m plans).1 ≠ .stall := by
  induction plans with
  | nil => simp [nextPlan]
  | cons p rest ih =>
    obtain ⟨m', i⟩ := p
    rw [List.mem_cons, not_or] at h
    rw [nextPlan]
    by_cases hm : m' = m
    · subst hm
      rw [if_pos rfl]
      rintro rfl
      exact h.1 rfl
    · rw [if_neg hm]
      exact ih h.2

theorem nextPlan_of_no_plan {m : Method} {plans : List (Method × Interruption)}
    (h : ∀ p ∈ plans, p.1 ≠ m) : nextPlan m plans = (.pass, plans) := by
  induction plans with
  | nil => rfl
  | cons p rest ih =>
    obtain ⟨m', i⟩ := p
    rw [List.forall_mem_cons] at h
    rw [nextPlan, if_neg h.1, ih h.2]

theorem exists_done_clearScrollIds {e : Engine} (h : e.AnswersReleases) (ids : List String) :
    ∃ result e', e.clearScrollIds ids = (.done result, e') := by
  have hnext : (nextPlan (Call.clearScrollIds ids).method e.plans).1 ≠ .stall :=
    nextPlan_ne_stall h
  rw [clearScrollIds, call]
  cases hplan : nextPlan (Call.clearScrollIds ids).method e.plans with
  | mk interruption plans =>
    rw [hplan] at hnext
    cases interruption with
    | pass => exact ⟨_, _, rfl⟩
    | fail reason => exact ⟨_, _, rfl⟩
    | stall => exact absurd rfl hnext

/-- The engine when it has been asked once to release cursors. Without any it is not asked. -/
def askedToRelease (e : Engine) (ids : List String) : Engine :=
  if ids = [] then e else (e.clearScrollIds ids).2

/-- A call that arrives is noted, whether or not the engine then refuses. -/
theorem calls_askedToRelease {e : Engine} (hhears : e.HearsReleases) (ids : List String) :
    (e.askedToRelease ids).calls = e.calls ++ CursorSet.releaseCalls ids := by
  rw [askedToRelease, CursorSet.releaseCalls]
  by_cases hids : ids = []
  · rw [if_pos hids, if_pos hids, List.append_nil]
  · have hplan : nextPlan (Call.clearScrollIds ids).method e.plans = (.pass, e.plans) :=
      nextPlan_of_no_plan hhears
    rw [if_neg hids, if_neg hids, clearScrollIds, call, hplan]

end Engine

/-- The host when its engine has been asked once, and how the call ended has been measured. -/
def Host.releasing (h : Host) (ids : List String) : Host :=
  if ids = [] then h else ((⟨ids, false⟩ : CursorSet).clear h).2

theorem Host.engine_releasing (h : Host) (ids : List String) :
    (h.releasing ids).engine = h.engine.askedToRelease ids := by
  rw [releasing, Engine.askedToRelease]
  split
  next => rfl
  next =>
    rw [CursorSet.clear]
    obtain ⟨⟨result⟩ | _, e⟩ := h.engine.clearScrollIds ids
    · cases result <;> rfl
    · rfl

namespace CursorSet

theorem clear_comes_back {h : Host} (hanswers : h.engine.AnswersReleases) (c : CursorSet) :
    (c.clear h).1 = true := by
  obtain ⟨result, e, hdone⟩ := Engine.exists_done_clearScrollIds hanswers c.ids
  rw [clear, hdone]
  cases result <;> rfl

/-! ### Sequences of additions and releases -/

/-- What is done with a cursor set. -/
inductive Step where
  | add (id : String)
  | release
  deriving DecidableEq, Repr

namespace Step

def apply (s : Step) (c : CursorSet) (h : Host) : CursorSet × Host :=
  match s with
  | .add id => (c.add id, h)
  | .release => (c.release h).2

def added? : Step → Option String
  | .add id => some id
  | .release => none

end Step

/-- The set and its host after these steps, from a set that is new. -/
def after (steps : List Step) (h : Host) : CursorSet × Host :=
  steps.foldl (fun s step => step.apply s.1 s.2) (empty, h)

/-- The ids that are added, each once, in the order in which they came first. -/
def added (steps : List Step) : List String := (steps.filterMap Step.added?).eraseDups

/-- The ids that are added before the first release, or at all when there is none. -/
def held (steps : List Step) : List String := added (steps.takeWhile (· ≠ .release))

theorem after_concat (steps : List Step) (s : Step) (h : Host) :
    after (steps ++ [s]) h = s.apply (after steps h).1 (after steps h).2 := by
  rw [after, List.foldl_append]
  rfl

theorem add_eraseDups (ids : List String) (released : Bool) (id : String) :
    (⟨ids.eraseDups, released⟩ : CursorSet).add id = ⟨(ids ++ [id]).eraseDups, released⟩ := by
  have hadd := addAll_empty (ids ++ [id])
  rw [addAll, List.foldl_append] at hadd
  change (empty.addAll ids).add id = _ at hadd
  rw [addAll_empty, add] at hadd
  rw [add]
  split at hadd <;> simp_all

theorem added_concat_release (steps : List Step) : added (steps ++ [.release]) = added steps := by
  have hnone : [Step.release].filterMap Step.added? = [] := rfl
  rw [added, List.filterMap_append, hnone, List.append_nil]
  rfl

theorem held_append_of_not_mem {steps : List Step} (h : .release ∉ steps) (more : List Step) :
    held (steps ++ more) = added (steps ++ more.takeWhile (· ≠ .release)) := by
  rw [held, List.takeWhile_append_of_pos]
  intro s hs
  simpa using ne_of_mem_of_not_mem hs h

/-- Until there is a release, all that is added is held. -/
theorem held_of_not_mem {steps : List Step} (h : .release ∉ steps) : held steps = added steps := by
  have hheld := held_append_of_not_mem h []
  rwa [List.append_nil, List.takeWhile_nil, List.append_nil] at hheld

theorem held_concat_release {steps : List Step} (h : .release ∉ steps) :
    held (steps ++ [.release]) = added steps := by
  have hheld := held_append_of_not_mem h [.release]
  rwa [List.takeWhile_cons_of_neg (by simp), List.append_nil] at hheld

/-- From the first release on, what is held stays as it is. -/
theorem held_append {steps : List Step} (h : .release ∈ steps) (more : List Step) :
    held (steps ++ more) = held steps := by
  obtain ⟨before, rest, rfl⟩ := List.append_of_mem h
  simp [held, List.takeWhile_append]

/-! ### What becomes of the set -/

theorem release_of_released {c : CursorSet} (hreleased : c.released = true) (h : Host) :
    c.release h = (true, c, h) := by
  rw [release, if_pos hreleased]

/-- The first release is the only one that has something to do, and leaves nothing more to do. -/
theorem release_of_unreleased {h : Host} (hanswers : h.engine.AnswersReleases)
    (ids : List String) :
    (⟨ids, false⟩ : CursorSet).release h = (true, ⟨ids, true⟩, h.releasing ids) := by
  rw [release, Host.releasing]
  by_cases hids : ids = []
  · simp [hids]
  · simp [hids, clear_comes_back hanswers]

theorem abandon_of_unreleased (ids : List String) (h : Host) :
    (⟨ids, false⟩ : CursorSet).abandon true h = h.releasing ids := by
  rw [abandon, Host.releasing]
  simp

/-- What a set and its host have come to. The induction takes the last step off: it is the first
release, or one after it, or an addition. -/
theorem after_eq {h : Host} (hanswers : h.engine.AnswersReleases) (steps : List Step) :
    after steps h = (⟨added steps, decide (.release ∈ steps)⟩,
      if .release ∈ steps then h.releasing (held steps) else h) := by
  induction steps using List.reverseRecOn with
  | nil => rfl
  | append_singleton steps s ih =>
    rw [after_concat, ih]
    cases s with
    | add id =>
      have hmem : Step.release ∈ steps ++ [Step.add id] ↔ Step.release ∈ steps := by simp
      have hadded : (steps ++ [Step.add id]).filterMap Step.added? =
          steps.filterMap Step.added? ++ [id] := by
        rw [List.filterMap_append]
        rfl
      rw [Step.apply, added, add_eraseDups, added, hadded]
      by_cases hreleased : .release ∈ steps
      · simp only [hmem, hreleased, held_append hreleased]
      · simp only [hmem, hreleased, if_false]
    | release =>
      have hmem : Step.release ∈ steps ++ [.release] := by simp
      rw [Step.apply, added_concat_release]
      by_cases hreleased : .release ∈ steps
      · simp only [hmem, hreleased, held_append hreleased]
        rw [release_of_released rfl]
      · simp only [hmem, hreleased, if_false, if_true, decide_false, decide_true]
        rw [release_of_unreleased hanswers, held_concat_release hreleased]

theorem add_of_mem {c : CursorSet} {id : String} (h : id ∈ c.ids) : c.add id = c := by
  rw [add, if_pos h]

theorem nodup_add {c : CursorSet} (h : c.ids.Nodup) (id : String) : (c.add id).ids.Nodup := by
  rw [add]
  split
  next => exact h
  next hnew =>
    rw [← List.concat_eq_append]
    exact List.Nodup.concat hnew h

theorem nodup_added (steps : List Step) : (added steps).Nodup := by
  rw [added]
  generalize steps.filterMap Step.added? = ids
  induction ids using List.reverseRecOn with
  | nil => exact List.nodup_nil
  | append_singleton ids id ih =>
    have hadd := nodup_add (c := ⟨ids.eraseDups, false⟩) ih id
    rwa [add_eraseDups] at hadd

/-- What is left of a cursor set when it is given up after these steps. -/
def givenUp (steps : List Step) (h : Host) : Host := (after steps h).1.abandon true (after steps h).2

/-- Whatever is done with a cursor set, it holds each id once, and its engine is asked once at most:
at the first release, or when a set that was never released is given up, and for what was held
then. -/
structure ReleasedOnce (steps : List Step) (h : Host) : Prop where
  ids_eq : (after steps h).1.ids = added steps
  nodup : (after steps h).1.ids.Nodup
  add_again : ∀ id ∈ (after steps h).1.ids, (after steps h).1.add id = (after steps h).1
  engine_eq : (after steps h).2.engine =
    if .release ∈ steps then h.engine.askedToRelease (held steps) else h.engine
  givenUp_eq : (givenUp steps h).engine = h.engine.askedToRelease (held steps)
  /-- One call at most arrives. -/
  calls_eq : h.engine.HearsReleases →
    (after steps h).2.engine.calls =
        h.engine.calls ++ (if .release ∈ steps then releaseCalls (held steps) else []) ∧
      (givenUp steps h).engine.calls = h.engine.calls ++ releaseCalls (held steps)

theorem givenUp_eq_releasing {h : Host} (hanswers : h.engine.AnswersReleases)
    (steps : List Step) : givenUp steps h = h.releasing (held steps) := by
  rw [givenUp, after_eq hanswers]
  by_cases hreleased : .release ∈ steps
  · simp [hreleased, abandon]
  · simp only [hreleased, decide_false, if_false]
    rw [abandon_of_unreleased, held_of_not_mem hreleased]

theorem releasedOnce_of_answers {h : Host} (hanswers : h.engine.AnswersReleases)
    (steps : List Step) : ReleasedOnce steps h := by
  have hafter := after_eq hanswers steps
  have hengine : (after steps h).2.engine =
      if .release ∈ steps then h.engine.askedToRelease (held steps) else h.engine := by
    rw [hafter, ← Host.engine_releasing]
    dsimp only
    split <;> rfl
  have hgivenUp : (givenUp steps h).engine = h.engine.askedToRelease (held steps) := by
    rw [givenUp_eq_releasing hanswers, Host.engine_releasing]
  constructor
  case ids_eq => rw [hafter]
  case nodup =>
    rw [hafter]
    exact nodup_added steps
  case add_again =>
    intro id hid
    exact add_of_mem hid
  case engine_eq => exact hengine
  case givenUp_eq => exact hgivenUp
  case calls_eq =>
    intro hhears
    rw [hgivenUp, hengine, Engine.calls_askedToRelease hhears]
    refine ⟨?_, rfl⟩
    split
    · exact Engine.calls_askedToRelease hhears _
    · rw [List.append_nil]

/-- An engine that refuses every release. -/
def refusing : Host := { Host.blank with engine := { Engine.blank with refusesRelease := true } }

/-- The release is refused, and neither the second one nor the end asks again. -/
theorem releasedOnce_refused :
    refusing.engine.AnswersReleases ∧ refusing.engine.HearsReleases ∧
      (givenUp [.add "b", .add "a", .add "b", .release, .add "c", .release] refusing).engine.calls =
        [.clearScrollIds ["b", "a"]] ∧
      ReleasedOnce [.add "b", .add "a", .add "b", .release, .add "c", .release] refusing := by
  have hhears : refusing.engine.HearsReleases := by
    intro p hp
    cases hp
  have hreleased := releasedOnce_of_answers hhears.answers
    [.add "b", .add "a", .add "b", .release, .add "c", .release]
  refine ⟨hhears.answers, hhears, ?_, hreleased⟩
  rw [(hreleased.calls_eq hhears).2]
  decide +kernel

/-- A release that comes before anything is added is the one that counts. -/
example : held [.release, .add "a"] = [] := rfl

end CursorSet

end DocumentSearch
