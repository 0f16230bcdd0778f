import DocumentSearch.Proofs.Clause.Scoping
import DocumentSearch.Proofs.Filter.Leaves
import DocumentSearch.Proofs.Filter.Structure

/-!
# Leaves are kept

Reading the clause of a filter from left to right meets the clauses of its leaves, each exactly once
and in the order of the leaves, and each under the many root of its property and under nothing else.
No junction, negation or neighbour of a leaf makes a difference to it.
-/

namespace DocumentSearch

/-! ### Conditions -/

namespace Condition

mutual

/-- A condition keeps its leaves in whatever scope it stands. -/
theorem placedLeaves_part (c : Condition) : c.part.placedLeaves = c.leaves.map Part.place := by
  cases c with
  | leaf l => rw [part, leaves, Part.placedLeaves_bare, List.map_singleton]
  | all cs =>
    rw [part, leaves, Part.placedLeaves_bool, Part.leavesWithin_grouped, placedLeaves_partsOf]
  | any cs =>
    rw [part, leaves, Part.placedLeaves_bool, Part.leavesWithin_grouped, placedLeaves_partsOf]
  | not c =>
    rw [part, leaves, Part.placedLeaves_bool, Part.leavesWithin_grouped, List.flatMap_singleton,
      placedLeaves_part c]

theorem placedLeaves_partsOf (cs : List Condition) :
    (partsOf cs).flatMap Part.placedLeaves = (leavesOf cs).map Part.place := by
  match cs with
  | [] => rfl
  | c :: rest =>
    rw [partsOf, leavesOf, List.flatMap_cons, placedLeaves_part c, placedLeaves_partsOf rest,
      List.map_append]

end

mutual

theorem allSound_part (c : Condition) : c.part.clause.AllSound := by
  cases c with
  | leaf l => exact Clause.allSound_leaf l.clause
  | all cs =>
    rw [part]
    refine Clause.allSound_bool.mpr ⟨by simp, ?_⟩
    exact Part.allSound_grouped (by decide) (allSound_partsOf cs)
  | any cs =>
    rw [part]
    refine Clause.allSound_bool.mpr ⟨by simp, ?_⟩
    exact Part.allSound_grouped (by decide) (allSound_partsOf cs)
  | not c =>
    rw [part, Part.grouped_singleton]
    refine Clause.allSound_bool.mpr ⟨fun _ => rfl, List.forall_mem_singleton.mpr ?_⟩
    exact Part.allSound_alone (allSound_part c)

theorem allSound_partsOf (cs : List Condition) : ∀ p ∈ partsOf cs, p.clause.AllSound := by
  match cs with
  | [] => simp [partsOf]
  | c :: rest =>
    rw [partsOf, List.forall_mem_cons]
    exact ⟨allSound_part c, allSound_partsOf rest⟩

end

end Condition

/-! ### Compiled clauses -/

namespace Filter

variable {t : RecordType} {id : Option Scalar} {filter : Option Filter} {c : Clause}

/-- What a request compiles to is one condition, alone in its scope, which has the leaves of the
request. -/
theorem exists_condition_of_compile (h : compile t id filter = .ok c) :
    ∃ k : Condition, c = k.part.alone ∧
      Leaf.placedAll t (requestedLeaves id filter) = .ok k.leaves := by
  -- An id shares its scope with the conditions of a conjunction, and is alone otherwise.
  cases id with
  | some i =>
    have hid : ∀ {l}, idsLeaf [i] = .ok l → (Leaf.ids [i]).placed t = .ok [l] := by
      intro l hl
      rw [Leaf.placed, hl]
      rfl
    cases filter with
    | some f =>
      rw [compile_id_filter] at h
      obtain ⟨l, hl, h⟩ := ok_of_bind h
      obtain ⟨cs, hcs, rfl⟩ := ok_of_bind_ok h
      have hrest : Leaf.placedAll t f.leaves = .ok (Condition.leavesOf cs) := by
        rw [← leavesOf_conjuncts, ← leaves_conditions, hcs]
        rfl
      refine ⟨.all (.leaf l :: cs), ?_, ?_⟩
      · simp [Condition.part, Condition.partsOf_eq_map, Part.alone, Part.manyRoot, Part.clause]
      · change Leaf.placedAll t (.ids [i] :: f.leaves) = _
        rw [Leaf.placedAll, hid hl, hrest, Condition.leaves_all]
        rfl
    | none =>
      rw [compile_id] at h
      obtain ⟨l, hl, rfl⟩ := ok_of_map h
      refine ⟨.leaf l, rfl, ?_⟩
      change Leaf.placedAll t [.ids [i]] = _
      rw [Leaf.placedAll_singleton, hid hl]
      rfl
  | none =>
    cases filter with
    | some f =>
      rw [compile_filter] at h
      obtain ⟨k, hk, rfl⟩ := ok_of_map h
      refine ⟨k, rfl, ?_⟩
      change Leaf.placedAll t f.leaves = _
      rw [← leaves_condition, hk]
      rfl
    | none => cases h

/-- What a clause has to do with the leaves it was compiled from. -/
structure Conserves (t : RecordType) (ls : List Leaf) (c : Clause) : Prop where
  /-- Read from left to right, the clause consists of the clauses of the leaves, each under the many
  root of its property and under nothing else. -/
  leaves : ∃ own : List (List PlacedLeaf),
    List.Forall₂ (fun l placed => l.placed t = .ok placed ∧ placed.length = l.clauseCount ∧
      ∀ p ∈ placed, p.manyRoot = l.manyRoot t.mapping) ls own ∧
    c.leavesWithin [] = own.flatten.map fun p => (p.manyRoot.toList, p.clause)
  /-- A `nested` clause holds leaf clauses only, and a `must_not` holds one clause. -/
  wellScoped : c.WellScoped
  /-- Without a leaf in a list there is no `nested` clause. -/
  plain : (∀ l ∈ ls, l.manyRoot t.mapping = none) →
    ∀ path inner, .nested path inner ∉ c.subclauses

/-- A compiled clause keeps the leaves of its request: those of the id and then those of the filter,
none lost, doubled or moved. -/
theorem compile_conserves (h : compile t id filter = .ok c) :
    Conserves t (requestedLeaves id filter) c := by
  obtain ⟨k, rfl, hplaced⟩ := exists_condition_of_compile h
  have hscoped : k.part.alone.WellScoped :=
    (Part.allSound_alone (Condition.allSound_part k)).wellScoped
  have hleaves : k.part.alone.leavesWithin [] = k.leaves.map Part.place :=
    Condition.placedLeaves_part k
  obtain ⟨own, hown, hflat⟩ := Leaf.forall₂_of_placedAll hplaced
  constructor
  case leaves =>
    refine ⟨own, ?_, by rw [hleaves, hflat]; rfl⟩
    exact hown.imp fun l placed hl => ⟨hl, Leaf.placed_spec hl⟩
  case wellScoped => exact hscoped
  case plain =>
    intro hnone
    apply Clause.not_nested_mem_of_leaves hscoped
    rw [hleaves]
    intro x hx
    obtain ⟨p, hp, rfl⟩ := List.mem_map.mp hx
    obtain ⟨l, hl, hroot⟩ := Leaf.manyRoot_of_placedAll hplaced hp
    rw [Part.place, hroot, hnone l hl]
    rfl

/-! ### A shelf in a list of copies -/

/-- Books, each with a list of its copies. -/
def books : RecordType :=
  let mapping := (((Mapping.empty "books" "book").property "title" .string).property
    "copies" .list).property "copies.shelf" .string
  ⟨"book", mapping, "id"⟩

/-- A book without a title and with a copy on the top left shelf. -/
def topLeft : Filter :=
  .and [.like "copies.shelf" "Top Left" .equalTo true, .exists "title" false]

theorem compile_conserves_topLeft :
    ∃ c, compile books (some (.text "7")) (some topLeft) = .ok c ∧
      c.leavesWithin [] = [([], .ids [.string "7"]), (["copies"], .fullText "copies.shelf" "top"),
        (["copies"], .fullText "copies.shelf" "left"), ([], .exists "title")] ∧
      Conserves books (requestedLeaves (some (.text "7")) (some topLeft)) c :=
  ⟨_, rfl, rfl, compile_conserves rfl⟩

end Filter

end DocumentSearch
