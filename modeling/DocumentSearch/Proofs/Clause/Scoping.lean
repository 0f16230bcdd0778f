import DocumentSearch.Proofs.Clause.Part

/-!
# Where leaf clauses stand

A leaf clause tests the document, or an element of the lists whose `nested` clauses stand around it.
`Clause.leavesWithin` reads a clause from left to right and gives each leaf clause with the paths
around it. What a scope makes of its parts is told in these terms: grouping keeps all leaf clauses
in their order and puts each under the many root of its property and under nothing else, and the
`nested` clauses that it makes hold leaf clauses only.
-/

namespace DocumentSearch

namespace Clause

mutual

/-- The leaf clauses from left to right, each with the paths of the `nested` clauses around it, the
outermost first; `around` are those around the whole. -/
def leavesWithin (around : List String) : Clause → List (List String × LeafClause)
  | .leaf l => [(around, l)]
  | .bool _ cs => leavesWithinAll around cs
  | .nested path filter => leavesWithin (around ++ [path]) filter

def leavesWithinAll (around : List String) : List Clause → List (List String × LeafClause)
  | [] => []
  | c :: rest => leavesWithin around c ++ leavesWithinAll around rest

end

mutual

/-- A clause and all that stand in it. -/
def subclauses : Clause → List Clause
  | .leaf l => [.leaf l]
  | .bool occur cs => .bool occur cs :: subclausesAll cs
  | .nested path filter => .nested path filter :: subclauses filter

def subclausesAll : List Clause → List Clause
  | [] => []
  | c :: rest => subclauses c ++ subclausesAll rest

end

/-- What a `nested` clause may hold: one leaf clause, or several of which all or any are asked
for. -/
def IsGroup (filter : Clause) : Prop :=
  (∃ l, filter = .leaf l) ∨
    ∃ occur ls, filter = .bool occur (ls.map .leaf) ∧ occur ≠ .mustNot ∧ 2 ≤ List.length ls

structure WellScoped (c : Clause) : Prop where
  flat : ∀ path filter, .nested path filter ∈ c.subclauses →
    ∀ path' filter', .nested path' filter' ∉ filter.subclauses
  group : ∀ path filter, .nested path filter ∈ c.subclauses → filter.IsGroup
  single : ∀ cs, .bool .mustNot cs ∈ c.subclauses → cs.length = 1

/-! ### Lists of clauses -/

theorem leavesWithinAll_eq_flatMap (around : List String) (cs : List Clause) :
    leavesWithinAll around cs = cs.flatMap (leavesWithin around) := by
  induction cs with
  | nil => rfl
  | cons c rest ih => rw [leavesWithinAll, ih, List.flatMap_cons]

theorem subclausesAll_eq_flatMap (cs : List Clause) : subclausesAll cs = cs.flatMap subclauses := by
  induction cs with
  | nil => rfl
  | cons c rest ih => rw [subclausesAll, ih, List.flatMap_cons]

@[simp] theorem leavesWithin_leaf (around : List String) (l : LeafClause) :
    (leaf l).leavesWithin around = [(around, l)] := by
  rw [leavesWithin]

@[simp] theorem leavesWithin_bool (around : List String) (occur : Occur) (cs : List Clause) :
    (bool occur cs).leavesWithin around = cs.flatMap (leavesWithin around) := by
  rw [leavesWithin, leavesWithinAll_eq_flatMap]

@[simp] theorem leavesWithin_nested (around : List String) (path : String) (filter : Clause) :
    (nested path filter).leavesWithin around = filter.leavesWithin (around ++ [path]) := by
  rw [leavesWithin]

@[simp] theorem subclauses_leaf (l : LeafClause) : (leaf l).subclauses = [.leaf l] := by
  rw [subclauses]

@[simp] theorem subclauses_bool (occur : Occur) (cs : List Clause) :
    (bool occur cs).subclauses = .bool occur cs :: cs.flatMap subclauses := by
  rw [subclauses, subclausesAll_eq_flatMap]

@[simp] theorem subclauses_nested (path : String) (filter : Clause) :
    (nested path filter).subclauses = .nested path filter :: filter.subclauses := by
  rw [subclauses]

/-! ### Groups -/

theorem exists_leaf_of_group {filter : Clause} (h : filter.IsGroup) (around : List String) :
    ∃ l, (around, l) ∈ filter.leavesWithin around := by
  obtain ⟨l, rfl⟩ | ⟨occur, ls, rfl, -, hlength⟩ := h
  · exact ⟨l, by simp⟩
  · obtain ⟨l, rest, rfl⟩ : ∃ l rest, ls = l :: rest :=
      List.exists_cons_of_length_pos (by omega)
    exact ⟨l, by simp⟩

theorem not_nested_mem_group {filter : Clause} (h : filter.IsGroup) (path : String)
    (inner : Clause) : .nested path inner ∉ filter.subclauses := by
  obtain ⟨l, rfl⟩ | ⟨occur, ls, rfl, -, -⟩ := h
  · simp
  · simp [List.mem_flatMap]

mutual

/-- The leaf clauses of a clause that stands in another are met in the other. -/
theorem mem_leavesWithin_of_mem_subclauses (around : List String) {s c : Clause}
    (h : s ∈ c.subclauses) :
    ∃ inner, ∀ x ∈ s.leavesWithin (around ++ inner), x ∈ c.leavesWithin around := by
  cases c with
  | leaf l =>
    rw [subclauses_leaf, List.mem_singleton] at h
    subst h
    exact ⟨[], by simp⟩
  | bool occur cs =>
    rw [subclauses, List.mem_cons] at h
    rcases h with rfl | h
    · exact ⟨[], by simp⟩
    · rw [leavesWithin]
      exact mem_leavesWithinAll_of_mem_subclauses around h
  | nested path filter =>
    rw [subclauses, List.mem_cons] at h
    rcases h with rfl | h
    · exact ⟨[], by simp⟩
    · obtain ⟨inner, hinner⟩ := mem_leavesWithin_of_mem_subclauses (around ++ [path]) h
      rw [List.append_assoc] at hinner
      exact ⟨[path] ++ inner, by rwa [leavesWithin]⟩

theorem mem_leavesWithinAll_of_mem_subclauses (around : List String) {s : Clause}
    {cs : List Clause} (h : s ∈ subclausesAll cs) :
    ∃ inner, ∀ x ∈ s.leavesWithin (around ++ inner), x ∈ leavesWithinAll around cs := by
  match cs with
  | [] => simp [subclausesAll] at h
  | c :: rest =>
    rw [subclausesAll, List.mem_append] at h
    rw [leavesWithinAll]
    rcases h with h | h
    · obtain ⟨inner, hinner⟩ := mem_leavesWithin_of_mem_subclauses around h
      exact ⟨inner, fun x hx => List.mem_append_left _ (hinner x hx)⟩
    · obtain ⟨inner, hinner⟩ := mem_leavesWithinAll_of_mem_subclauses around h
      exact ⟨inner, fun x hx => List.mem_append_right _ (hinner x hx)⟩

end

/-- A `nested` clause is never empty, so a clause whose leaf clauses all test the document itself
has none. -/
theorem not_nested_mem_of_leaves {c : Clause} (hscoped : c.WellScoped)
    (hleaves : ∀ x ∈ c.leavesWithin [], x.1 = []) (path : String) (filter : Clause) :
    .nested path filter ∉ c.subclauses := by
  intro hmem
  have hgroup : filter.IsGroup := hscoped.group path filter hmem
  obtain ⟨inner, hinner⟩ := mem_leavesWithin_of_mem_subclauses [] hmem
  rw [List.nil_append, leavesWithin_nested] at hinner
  obtain ⟨l, hl⟩ := exists_leaf_of_group hgroup (inner ++ [path])
  have hnone : inner ++ [path] = [] := hleaves _ (hinner _ hl)
  simp at hnone

/-! ### Sound clauses -/

/-- What a clause has to do with the clauses right inside it. -/
def Sound : Clause → Prop
  | .leaf _ => True
  | .bool occur cs => occur = .mustNot → cs.length = 1
  | .nested _ filter => filter.IsGroup

/-- Every clause that stands in a clause, itself included, is sound. -/
def AllSound (c : Clause) : Prop := ∀ s ∈ c.subclauses, s.Sound

@[simp] theorem allSound_leaf (l : LeafClause) : (leaf l).AllSound := by
  simp [AllSound, Sound]

theorem allSound_bool {occur : Occur} {cs : List Clause} :
    (bool occur cs).AllSound ↔ (occur = .mustNot → cs.length = 1) ∧ ∀ c ∈ cs, c.AllSound := by
  simp only [AllSound, subclauses_bool, List.forall_mem_cons, List.forall_mem_flatMap]
  exact Iff.rfl

theorem allSound_of_group {filter : Clause} (h : filter.IsGroup) : filter.AllSound := by
  obtain ⟨l, rfl⟩ | ⟨occur, ls, rfl, hoccur, -⟩ := h
  · exact allSound_leaf l
  · refine allSound_bool.mpr ⟨fun hnot => absurd hnot hoccur, ?_⟩
    simp

theorem allSound_nested {path : String} {filter : Clause} (h : filter.IsGroup) :
    (nested path filter).AllSound := by
  rw [AllSound, subclauses_nested, List.forall_mem_cons]
  exact ⟨h, allSound_of_group h⟩

theorem AllSound.wellScoped {c : Clause} (h : c.AllSound) : c.WellScoped where
  flat _ _ hmem := not_nested_mem_group (h _ hmem)
  group _ _ hmem := h _ hmem
  single _ hmem := h _ hmem rfl

end Clause

/-! ### Parts of a scope -/

namespace Part

/-- A leaf clause, with the many root of its property as the only path around it. -/
def place (l : PlacedLeaf) : List String × LeafClause := (l.manyRoot.toList, l.clause)

/-- The leaf clauses of a part that is alone in its scope. -/
def placedLeaves (p : Part) : List (List String × LeafClause) := p.alone.leavesWithin []

variable {occur : Occur} {ps run : List Part} {p : Part} {root : String}

theorem placedLeaves_bare (l : PlacedLeaf) : (bare l).placedLeaves = [place l] := by
  obtain ⟨manyRoot, clause⟩ := l
  cases manyRoot <;> simp [placedLeaves, alone, Part.manyRoot, Part.clause, place]

theorem placedLeaves_bool (cs : List Clause) :
    (bool occur cs).placedLeaves = cs.flatMap (Clause.leavesWithin []) := by
  simp [placedLeaves, alone, manyRoot, clause]

theorem exists_leaves_of_same (hroot : ∀ p ∈ run, p.manyRoot = some root) :
    ∃ ls : List LeafClause, run.map clause = ls.map .leaf ∧
      run.flatMap placedLeaves = ls.map fun l => ([root], l) := by
  induction run with
  | nil => exact ⟨[], rfl, rfl⟩
  | cons p rest ih =>
    rw [List.forall_mem_cons] at hroot
    obtain ⟨ls, hclauses, hleaves⟩ := ih hroot.2
    cases p with
    | bool occur cs => cases hroot.1
    | bare l =>
      have hplace : place l = ([root], l.clause) := by
        rw [place, show l.manyRoot = some root from hroot.1]
        rfl
      refine ⟨l.clause :: ls, by simp [hclauses, clause], ?_⟩
      rw [List.flatMap_cons, hleaves, placedLeaves_bare, hplace]
      rfl

theorem leavesWithin_map_leaf (around : List String) (ls : List LeafClause) :
    (ls.map .leaf).flatMap (Clause.leavesWithin around) = ls.map fun l => (around, l) := by
  rw [List.flatMap_map, List.map_eq_flatMap]
  simp

theorem leavesWithin_filterOf (around : List String) (ls : List LeafClause) :
    (filterOf occur (ls.map .leaf)).leavesWithin around = ls.map fun l => (around, l) := by
  match ls with
  | [] => simp [filterOf]
  | [l] => simp [filterOf]
  | l :: l' :: rest =>
    exact (Clause.leavesWithin_bool around occur _).trans
      (leavesWithin_map_leaf around (l :: l' :: rest))

theorem isGroup_filterOf (hoccur : occur ≠ .mustNot) {ls : List LeafClause} (hne : ls ≠ []) :
    (filterOf occur (ls.map .leaf)).IsGroup := by
  match ls, hne with
  | [l], _ => exact Or.inl ⟨l, rfl⟩
  | l :: l' :: rest, _ => exact Or.inr ⟨occur, l :: l' :: rest, rfl, hoccur, by simp⟩

theorem leavesWithin_run (h : run ∈ runsOn manyRoot ps) :
    (runClauses occur run).flatMap (Clause.leavesWithin []) = run.flatMap placedLeaves := by
  rcases cases_of_mem_runsOn h with ⟨p, rfl, hp⟩ | ⟨root, hroot⟩
  · simp [runClauses, hp, placedLeaves, alone]
  · obtain ⟨ls, hclauses, hleaves⟩ := exists_leaves_of_same hroot
    rw [runClauses_of_same (ne_nil_of_mem_runsOn h) hroot, hclauses, hleaves]
    simp [leavesWithin_filterOf]

/-- Grouping keeps all leaf clauses, in their order. -/
theorem leavesWithin_grouped (occur : Occur) (ps : List Part) :
    (grouped occur ps).flatMap (Clause.leavesWithin []) = ps.flatMap placedLeaves := by
  calc (grouped occur ps).flatMap (Clause.leavesWithin [])
      = (runsOn manyRoot ps).flatMap fun run =>
          (runClauses occur run).flatMap (Clause.leavesWithin []) := List.flatMap_assoc
    _ = (runsOn manyRoot ps).flatMap fun run => run.flatMap placedLeaves :=
        List.flatMap_congr fun run hrun => leavesWithin_run hrun
    _ = ((runsOn manyRoot ps).flatMap id).flatMap placedLeaves := List.flatMap_assoc.symm
    _ = ps.flatMap placedLeaves := by rw [List.flatMap_id, flatten_runsOn]

theorem allSound_alone (h : p.clause.AllSound) : p.alone.AllSound := by
  cases p with
  | bool occur cs => exact h
  | bare l =>
    rw [alone]
    split
    · exact h
    · exact Clause.allSound_nested (Or.inl ⟨l.clause, rfl⟩)

/-- Grouping makes `nested` clauses of leaf clauses only. -/
theorem allSound_grouped (hoccur : occur ≠ .mustNot) (h : ∀ p ∈ ps, p.clause.AllSound) :
    ∀ c ∈ grouped occur ps, c.AllSound := by
  intro c hc
  obtain ⟨run, hrun, hc⟩ := List.mem_flatMap.mp hc
  rcases cases_of_mem_runsOn hrun with ⟨p, rfl, hp⟩ | ⟨root, hroot⟩
  · have hmem : p ∈ ps := exists_mem_runsOn.mp ⟨[p], hrun, List.mem_singleton_self p⟩
    simp only [runClauses, hp, List.head?_cons, Option.bind_some, List.map_cons, List.map_nil,
      List.mem_singleton] at hc
    rw [hc]
    exact h p hmem
  · have hne : run ≠ [] := ne_nil_of_mem_runsOn hrun
    obtain ⟨ls, hclauses, -⟩ := exists_leaves_of_same hroot
    have hls : ls ≠ [] := by
      rintro rfl
      exact hne (List.map_eq_nil_iff.mp hclauses)
    rw [runClauses_of_same hne hroot, hclauses, List.mem_singleton] at hc
    rw [hc]
    exact Clause.allSound_nested (isGroup_filterOf hoccur hls)

end Part

end DocumentSearch
