import DocumentSearch.Clause.Basic
import Mathlib.Data.List.SplitBy

/-!
# Parts of a scope

What is written into a `bool` scope before neighbours are joined: leaf clauses, each with the many
root under which its property stands, and `bool` clauses that are finished. Neighbours on one many
root make a run, as long as possible, and each run becomes one `nested` clause. `Part.grouped` says
what a scope holds in the end, without a word on how it is put together.
-/

namespace DocumentSearch

/-! ### Runs -/

/-- The items cut into runs: neighbours on one root stay together, and an item without a root stands
by itself. -/
def runsOn {α : Type} (root : α → Option String) (items : List α) : List (List α) :=
  items.splitBy fun a b => (root a).isSome && root a == root b

section Runs

variable {α β : Type} {root : α → Option String}

@[simp] theorem runsOn_singleton (a : α) : runsOn root [a] = [[a]] := rfl

@[simp] theorem flatten_runsOn (items : List α) : (runsOn root items).flatten = items :=
  List.flatten_splitBy _ _

theorem exists_mem_runsOn {items : List α} {a : α} :
    (∃ run ∈ runsOn root items, a ∈ run) ↔ a ∈ items := by
  rw [← List.mem_flatten, flatten_runsOn]

theorem ne_nil_of_mem_runsOn {items run : List α} (h : run ∈ runsOn root items) : run ≠ [] :=
  List.ne_nil_of_mem_splitBy h

/-- An item without a root ends the run before it and begins none. -/
theorem runsOn_cons_of_none {a : α} (h : root a = none) (items : List α) :
    runsOn root (a :: items) = [a] :: runsOn root items := by
  cases items with
  | nil => rfl
  | cons b rest =>
    refine List.splitBy_append_cons (l := [a]) rest ?_
    simp [h]

theorem runsOn_of_same {run : List α} {r : String} (hne : run ≠ [])
    (hroot : ∀ a ∈ run, root a = some r) : runsOn root run = [run] := by
  apply List.splitBy_of_isChain hne
  apply List.Pairwise.isChain
  apply List.pairwise_of_forall_mem_list
  intro a ha b hb
  simp [hroot a ha, hroot b hb]

/-- A run ends before an item on another root, or on none. -/
theorem runsOn_append_cons {run : List α} {a : α} {r : String}
    (hroot : ∀ x ∈ run, root x = some r) (ha : root a ≠ some r) (items : List α) :
    runsOn root (run ++ a :: items) = runsOn root run ++ runsOn root (a :: items) := by
  apply List.splitBy_append_cons
  intro x hx
  have hlast : root x = some r := hroot x (List.mem_of_mem_getLast? hx)
  simp [hlast, Ne.symm ha]

private theorem root_eq_of_isChain {r : String} {a : α} {rest : List α} (ha : root a = some r)
    (hchain : (a :: rest).IsChain fun x y => ((root x).isSome && root x == root y) = true) :
    ∀ b ∈ a :: rest, root b = some r := by
  induction rest generalizing a with
  | nil => simpa using ha
  | cons b rest ih =>
    obtain ⟨hab, hrest⟩ := List.isChain_cons_cons.mp hchain
    have hb : root b = some r := by
      simp only [ha, Option.isSome_some, Bool.true_and, beq_iff_eq] at hab
      exact hab.symm
    intro c hc
    rcases List.mem_cons.mp hc with rfl | hc
    · exact ha
    · exact ih hb hrest c hc

/-- A run is one item without a root, or items that all stand on one root. -/
theorem cases_of_mem_runsOn {items run : List α} (h : run ∈ runsOn root items) :
    (∃ a, run = [a] ∧ root a = none) ∨ ∃ r, ∀ a ∈ run, root a = some r := by
  have hchain := List.isChain_of_mem_splitBy h
  cases run with
  | nil => exact absurd rfl (ne_nil_of_mem_runsOn h)
  | cons a rest =>
    cases ha : root a with
    | some r => exact Or.inr ⟨r, root_eq_of_isChain ha hchain⟩
    | none =>
      cases rest with
      | nil => exact Or.inl ⟨a, rfl, ha⟩
      | cons b rest =>
        have hab := (List.isChain_cons_cons.mp hchain).1
        simp [ha] at hab

/-- Where items are cut depends on their roots alone. -/
theorem runsOn_map (f : β → α) (items : List β) :
    runsOn root (items.map f) = (runsOn (root ∘ f) items).map (List.map f) := by
  refine List.splitBy_eq_iff.mpr ⟨?_, ?_, ?_, ?_⟩
  · rw [← List.map_flatten, flatten_runsOn]
  · intro hnil
    obtain ⟨run, hrun, heq⟩ := List.mem_map.mp hnil
    exact ne_nil_of_mem_runsOn hrun (List.map_eq_nil_iff.mp heq)
  · intro run hrun
    obtain ⟨source, hsource, rfl⟩ := List.mem_map.mp hrun
    exact (List.isChain_map f).mpr (List.isChain_of_mem_splitBy hsource)
  · refine (List.isChain_map _).mpr ?_
    refine (List.isChain_getLast_head_splitBy _ items).imp ?_
    rintro first second ⟨hfirst, hsecond, hcut⟩
    refine ⟨by simpa using hfirst, by simpa using hsecond, ?_⟩
    simpa using hcut

end Runs

/-! ### Parts -/

/-- A leaf clause, and the many root under which its property stands, if there is one. -/
structure PlacedLeaf where
  manyRoot : Option String
  clause : LeafClause

inductive Part where
  | bare (l : PlacedLeaf)
  | bool (occur : Occur) (clauses : List Clause)

namespace Part

def manyRoot : Part → Option String
  | .bare l => l.manyRoot
  | .bool _ _ => none

def clause : Part → Clause
  | .bare l => .leaf l.clause
  | .bool occur clauses => .bool occur clauses

/-- The filter of a `nested` clause: the only clause of its run, or all of them under the occurrence
of the scope around it. -/
def filterOf (occur : Occur) : List Clause → Clause
  | [c] => c
  | cs => .bool occur cs

/-- What a run comes to in a scope. -/
def runClauses (occur : Occur) (run : List Part) : List Clause :=
  match run.head?.bind manyRoot with
  | none => run.map clause
  | some root => [.nested root (filterOf occur (run.map clause))]

/-- The clauses of a scope into which these parts are written. -/
def grouped (occur : Occur) (parts : List Part) : List Clause :=
  (runsOn manyRoot parts).flatMap (runClauses occur)

/-- The clause of a part that stands in no scope. -/
def alone (p : Part) : Clause :=
  match p.manyRoot with
  | none => p.clause
  | some root => .nested root p.clause

@[simp] theorem grouped_nil (occur : Occur) : grouped occur [] = [] := rfl

@[simp] theorem grouped_singleton (occur : Occur) (p : Part) : grouped occur [p] = [p.alone] := by
  simp only [grouped, runsOn_singleton, List.flatMap_singleton, runClauses, alone]
  cases h : p.manyRoot <;> simp [h, filterOf]

theorem runClauses_ne_nil {occur : Occur} {run : List Part} (h : run ≠ []) :
    runClauses occur run ≠ [] := by
  unfold runClauses
  split <;> simp [h]

theorem grouped_eq_nil_iff {occur : Occur} {parts : List Part} :
    grouped occur parts = [] ↔ parts = [] := by
  constructor
  · intro hnil
    have hflat : (runsOn manyRoot parts).flatten = parts := flatten_runsOn parts
    rw [← hflat, List.flatten_eq_nil_iff]
    intro run hrun
    by_contra hne
    exact runClauses_ne_nil hne (List.flatMap_eq_nil_iff.mp hnil run hrun)
  · rintro rfl
    rfl

theorem runClauses_of_same {occur : Occur} {run : List Part} {r : String} (hne : run ≠ [])
    (hroot : ∀ p ∈ run, p.manyRoot = some r) :
    runClauses occur run = [.nested r (filterOf occur (run.map clause))] := by
  cases run with
  | nil => exact absurd rfl hne
  | cons p rest => simp [runClauses, hroot p (by simp)]

/-- A finished clause, or a leaf that belongs to the document, stays as it is. -/
theorem grouped_cons_of_none {p : Part} (h : p.manyRoot = none) (occur : Occur)
    (parts : List Part) : grouped occur (p :: parts) = p.clause :: grouped occur parts := by
  rw [grouped, runsOn_cons_of_none h, List.flatMap_cons]
  simp [grouped, runClauses, h]

theorem grouped_of_same {occur : Occur} {run : List Part} {r : String} (hne : run ≠ [])
    (hroot : ∀ p ∈ run, p.manyRoot = some r) :
    grouped occur run = [.nested r (filterOf occur (run.map clause))] := by
  rw [grouped, runsOn_of_same hne hroot, List.flatMap_singleton, runClauses_of_same hne hroot]

theorem grouped_append_cons {occur : Occur} {run : List Part} {p : Part} {r : String}
    (hroot : ∀ q ∈ run, q.manyRoot = some r) (hp : p.manyRoot ≠ some r) (parts : List Part) :
    grouped occur (run ++ p :: parts) = grouped occur run ++ grouped occur (p :: parts) := by
  rw [grouped, runsOn_append_cons hroot hp, List.flatMap_append]
  rfl

end Part

end DocumentSearch
