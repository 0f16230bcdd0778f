import DocumentSearch.Text.Path
import Mathlib.Data.List.Infix

/-!
# Paths and their segments

A path and its segments say the same: joining gives the path back, so no two paths have the same
segments, and a path lies below another exactly when its segments go on where those of the other
end. Of two paths of which neither lies on the way to the other, the segments part somewhere.
-/

namespace DocumentSearch.Path

section Split

variable {mark : Char}

theorem exists_split (mark : Char) (cs : List Char) :
    ∃ part more, split mark cs = part :: more := by
  induction cs with
  | nil => exact ⟨[], [], rfl⟩
  | cons c rest ih =>
    obtain ⟨part, more, hrest⟩ := ih
    by_cases h : c = mark
    · exact ⟨[], part :: more, by rw [split, if_pos h, hrest]⟩
    · exact ⟨c :: part, more, by rw [split, if_neg h, hrest]⟩

/-- The parts of two texts with a mark between them are those of the one and then of the other. -/
theorem split_append_mark (cs ds : List Char) :
    split mark (cs ++ mark :: ds) = split mark cs ++ split mark ds := by
  induction cs with
  | nil => simp [split]
  | cons c rest ih =>
    obtain ⟨part, more, hrest⟩ := exists_split mark rest
    by_cases h : c = mark
    · simp [split, h, ih]
    · simp [split, h, ih, hrest]

end Split

/-! ### Joining -/

theorem segments_ne_nil (path : String) : segments path ≠ [] := by
  obtain ⟨part, more, hsplit⟩ := exists_split '.' path.toList
  simp [segments, hsplit]

theorem join_cons {s : String} {rest : List String} (h : rest ≠ []) :
    join (s :: rest) = child s (join rest) := by
  cases rest with
  | nil => exact absurd rfl h
  | cons => rfl

theorem join_append {xs ys : List String} (hxs : xs ≠ []) (hys : ys ≠ []) :
    join (xs ++ ys) = child (join xs) (join ys) := by
  induction xs with
  | nil => exact absurd rfl hxs
  | cons s rest ih =>
    by_cases hrest : rest = []
    · subst hrest
      exact join_cons hys
    · rw [List.cons_append, join_cons (List.append_ne_nil_of_right_ne_nil rest hys), ih hrest,
        join_cons hrest]
      simp only [child, String.append_assoc]

theorem toList_join_split (cs : List Char) :
    (join ((split '.' cs).map String.ofList)).toList = cs := by
  induction cs with
  | nil => rfl
  | cons c rest ih =>
    obtain ⟨part, more, hrest⟩ := exists_split '.' rest
    rw [hrest] at ih
    by_cases h : c = '.'
    · rw [split, if_pos h, hrest, List.map_cons, join_cons (by simp), child]
      simpa [h] using ih
    · rw [split, if_neg h, hrest]
      cases more with
      | nil => simpa [join] using ih
      | cons next others => simpa [join] using ih

theorem join_segments (path : String) : join (segments path) = path := by
  apply String.toList_injective
  exact toList_join_split path.toList

theorem segments_injective {path other : String} (h : segments path = segments other) :
    path = other := by
  rw [← join_segments path, h, join_segments]

/-! ### Paths below paths -/

theorem segments_child (path segment : String) :
    segments (child path segment) = segments path ++ segments segment := by
  simp [segments, child, split_append_mark]

/-- Where segments go on, a path lies below. -/
theorem exists_child_iff {path name : String} :
    (∃ rest, name = child path rest) ↔
      ∃ more, more ≠ [] ∧ segments name = segments path ++ more := by
  constructor
  · rintro ⟨rest, rfl⟩
    exact ⟨segments rest, segments_ne_nil rest, segments_child path rest⟩
  · rintro ⟨more, hmore, hname⟩
    refine ⟨join more, ?_⟩
    rw [← join_segments name, hname, join_append (segments_ne_nil path) hmore, join_segments]

/-! ### The part below a path -/

theorem after?_eq_some_iff {start cs rest : List Char} :
    after? start cs = some rest ↔ cs = start ++ rest := by
  induction start generalizing cs with
  | nil => simp [after?, eq_comm]
  | cons a start ih =>
    cases cs with
    | nil => simp [after?]
    | cons b cs =>
      rw [after?]
      by_cases h : a = b
      · simp [h, ih]
      · simp [h, Ne.symm h]

theorem below?_eq_some_iff {path name rest : String} :
    below? path name = some rest ↔ name = child path rest := by
  rw [below?, Option.map_eq_some_iff]
  constructor
  · rintro ⟨cs, hcs, rfl⟩
    rw [after?_eq_some_iff] at hcs
    apply String.toList_injective
    simpa [child] using hcs
  · rintro rfl
    exact ⟨rest.toList, after?_eq_some_iff.mpr (by simp [child]), by simp⟩

/-! ### Paths on the way -/

theorem cuts_eq {cs part : List Char} {more : List (List Char)} (h : split '.' cs = part :: more)
    (read : List Char) :
    cuts read cs =
      more.inits.map fun parts => read ++ (join ((part :: parts).map String.ofList)).toList := by
  induction cs generalizing part more read with
  | nil =>
    obtain ⟨rfl, rfl⟩ := List.cons.inj h
    simp [cuts, join]
  | cons c rest ih =>
    obtain ⟨next, others, hrest⟩ := exists_split '.' rest
    by_cases hdot : c = '.'
    · rw [split, if_pos hdot, hrest] at h
      obtain ⟨rfl, rfl⟩ := List.cons.inj h
      rw [cuts, if_pos hdot, ih hrest, List.inits_cons]
      simp [join, hdot]
    · rw [split, if_neg hdot, hrest] at h
      obtain ⟨rfl, rfl⟩ := List.cons.inj h
      rw [cuts, if_neg hdot, ih hrest]
      refine List.map_congr_left fun parts _ => ?_
      cases parts <;> simp [join]

/-- The ancestors of a path have its first segments: one of them, or more, or all. -/
theorem ancestors_eq {path s : String} {more : List String} (h : segments path = s :: more) :
    ancestors path = more.inits.map fun parts => join (s :: parts) := by
  obtain ⟨part, others, hsplit⟩ := exists_split '.' path.toList
  rw [segments, hsplit] at h
  obtain ⟨rfl, rfl⟩ := List.cons.inj h
  rw [ancestors, cuts_eq hsplit, List.map_map, List.map_inits, List.map_map]
  refine List.map_congr_left fun parts _ => ?_
  simp

theorem mark_not_mem_of_mem_split {mark : Char} {cs part : List Char} (h : part ∈ split mark cs) :
    mark ∉ part := by
  induction cs generalizing part with
  | nil =>
    obtain rfl := List.mem_singleton.mp h
    exact List.not_mem_nil
  | cons c rest ih =>
    obtain ⟨next, others, hrest⟩ := exists_split mark rest
    rw [hrest] at ih
    by_cases hmark : c = mark
    · rw [split, if_pos hmark, hrest] at h
      rcases List.mem_cons.mp h with rfl | h
      · exact List.not_mem_nil
      · exact ih h
    · rw [split, if_neg hmark, hrest] at h
      rcases List.mem_cons.mp h with rfl | h
      · have hnext : mark ∉ next := ih List.mem_cons_self
        simp [hnext, Ne.symm hmark]
      · exact ih (List.mem_cons_of_mem next h)

theorem split_of_not_mem {mark : Char} {cs : List Char} (h : mark ∉ cs) : split mark cs = [cs] := by
  induction cs with
  | nil => rfl
  | cons c rest ih =>
    rw [List.mem_cons, not_or] at h
    rw [split, if_neg (Ne.symm h.1), ih h.2]

/-- Segments of a path, joined, have just these segments. -/
theorem segments_join {path : String} {parts : List String} (hne : parts ≠ [])
    (h : ∀ s ∈ parts, s ∈ segments path) : segments (join parts) = parts := by
  induction parts with
  | nil => exact absurd rfl hne
  | cons s rest ih =>
    rw [List.forall_mem_cons] at h
    have hself : segments s = [s] := by
      obtain ⟨part, hpart, rfl⟩ := List.mem_map.mp h.1
      rw [segments, String.toList_ofList, split_of_not_mem (mark_not_mem_of_mem_split hpart)]
      rfl
    by_cases hrest : rest = []
    · rw [hrest]
      exact hself
    · rw [join_cons hrest, segments_child, hself, ih hrest h.2]
      rfl

/-! ### Paths that part -/

/-- Neither of two paths leads on to the other. -/
def Apart (path other : String) : Prop :=
  ¬segments path <+: segments other ∧ ¬segments other <+: segments path

instance (path other : String) : Decidable (Apart path other) :=
  inferInstanceAs (Decidable (_ ∧ _))

theorem Apart.symm {path other : String} (h : Apart path other) : Apart other path := ⟨h.2, h.1⟩

/-- Segments that go together for a while and then part, before either list ends. -/
inductive Diverge : List String → List String → Prop where
  | here {s t : String} (h : s ≠ t) (ss ts : List String) : Diverge (s :: ss) (t :: ts)
  | later (s : String) {ss ts : List String} (h : Diverge ss ts) : Diverge (s :: ss) (s :: ts)

theorem diverge_of_not_prefix {ss ts : List String} (hss : ¬ss <+: ts) (hts : ¬ts <+: ss) :
    Diverge ss ts := by
  induction ss generalizing ts with
  | nil => exact absurd List.nil_prefix hss
  | cons s ss ih =>
    cases ts with
    | nil => exact absurd List.nil_prefix hts
    | cons t ts =>
      by_cases hne : s = t
      · subst hne
        simp only [List.cons_prefix_cons, true_and] at hss hts
        exact .later s (ih hss hts)
      · exact .here hne ss ts

theorem Apart.diverge {path other : String} (h : Apart path other) :
    Diverge (segments path) (segments other) :=
  diverge_of_not_prefix h.1 h.2

end DocumentSearch.Path
