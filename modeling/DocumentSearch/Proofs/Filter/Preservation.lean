import DocumentSearch.Proofs.Filter.Meaning
import DocumentSearch.Proofs.Filter.Structure
import DocumentSearch.Proofs.Json.Members
import DocumentSearch.Query.Compile

/-!
# Compiling keeps the meaning

The clause that a filter compiles to is true of exactly the documents of which the filter is true.
Compiling has been told as two steps, and so is the proof: a condition asks what its filter asks,
and a scope of grouped parts asks what its parts ask. The runs of a `must` scope are the runs of the
conjunction; in a `should` scope it makes no difference that a run shares an element.
-/

namespace DocumentSearch

/-! ### Runs of parts -/

namespace Part

variable {w : World}

/-- A part as the conjunction around it sees it. -/
def operand (w : World) : Part → Operand
  | .bare l => .leaf l
  | .bool occur clauses => .settled ((Clause.bool occur clauses).Holds w w.root)

@[simp] theorem manyRoot_operand (p : Part) : (p.operand w).manyRoot = p.manyRoot := by
  cases p <;> rfl

/-- Operands are cut into runs where their parts are. -/
theorem runsOn_operand (ps : List Part) :
    runsOn Operand.manyRoot (ps.map (operand w)) =
      (runsOn manyRoot ps).map (List.map (operand w)) := by
  rw [runsOn_map]
  congr 2
  funext p
  exact manyRoot_operand p

theorem holds_clause_root (p : Part) : p.clause.Holds w w.root ↔ (p.operand w).At w w.root := by
  cases p with
  | bare l => exact Clause.holds_leaf
  | bool occur clauses => exact Iff.rfl

theorem holds_clause_of_root {p : Part} {root : String} (h : p.manyRoot = some root)
    (x : w.Record) : p.clause.Holds w x ↔ (p.operand w).At w x := by
  cases p with
  | bare l => exact Clause.holds_leaf
  | bool occur clauses => simp [manyRoot] at h

/-! ### Runs -/

theorem holdTogether_of_same {run : List Part} {root : String} (hne : run ≠ [])
    (hroot : ∀ p ∈ run, p.manyRoot = some root) :
    Operand.HoldTogether w (run.map (operand w)) ↔
      ∃ e ∈ w.elements root, ∀ p ∈ run, p.clause.Holds w e := by
  cases run with
  | nil => exact absurd rfl hne
  | cons p rest =>
    have hhead : ((p :: rest).map (operand w)).head?.bind Operand.manyRoot = some root := by
      simpa using hroot p (by simp)
    simp only [Operand.HoldTogether, hhead, List.forall_mem_map]
    refine exists_congr fun e => and_congr_right fun _ => forall₂_congr fun q hq => ?_
    exact (holds_clause_of_root (hroot q hq) e).symm

theorem holds_operand_of_some {p : Part} {root : String} (h : p.manyRoot = some root) :
    (p.operand w).Holds w ↔ ∃ e ∈ w.elements root, p.clause.Holds w e := by
  have hroot : ∀ q ∈ [p], q.manyRoot = some root := by simpa using h
  refine (holdTogether_of_same (List.cons_ne_nil p []) hroot).trans ?_
  simp

theorem holds_operand_of_none {p : Part} (h : p.manyRoot = none) :
    (p.operand w).Holds w ↔ p.clause.Holds w w.root := by
  simp [Operand.Holds, Operand.HoldTogether, h, holds_clause_root]

theorem holds_alone (p : Part) : p.alone.Holds w w.root ↔ (p.operand w).Holds w := by
  cases h : p.manyRoot with
  | none => rw [holds_operand_of_none h, alone, h]
  | some root => rw [holds_operand_of_some h, alone, h, Clause.holds_nested]

theorem holds_filterOf_must {cs : List Clause} {x : w.Record} :
    (filterOf .must cs).Holds w x ↔ ∀ c ∈ cs, c.Holds w x := by
  match cs with
  | [] => simp [filterOf]
  | [c] => simp [filterOf]
  | c :: c' :: rest => simp [filterOf]

theorem holds_filterOf_should {cs : List Clause} (h : cs ≠ []) {x : w.Record} :
    (filterOf .should cs).Holds w x ↔ ∃ c ∈ cs, c.Holds w x := by
  match cs, h with
  | [c], _ => simp [filterOf]
  | c :: c' :: rest, _ => simp [filterOf]

/-- In a `must` scope a run asks for an element that passes all of it. -/
theorem holds_run_must {ps run : List Part} (h : run ∈ runsOn manyRoot ps) :
    (∀ c ∈ runClauses .must run, c.Holds w w.root) ↔
      Operand.HoldTogether w (run.map (operand w)) := by
  rcases cases_of_mem_runsOn h with ⟨p, rfl, hp⟩ | ⟨root, hroot⟩
  · have hclauses : runClauses .must [p] = [p.clause] := by simp [runClauses, hp]
    rw [hclauses, List.forall_mem_singleton]
    exact (holds_operand_of_none hp).symm
  · have hne := ne_nil_of_mem_runsOn h
    rw [runClauses_of_same hne hroot, holdTogether_of_same hne hroot]
    simp [holds_filterOf_must]

/-- In a `should` scope a run asks for an element that passes any of it. -/
theorem holds_run_should {ps run : List Part} (h : run ∈ runsOn manyRoot ps) :
    (∃ c ∈ runClauses .should run, c.Holds w w.root) ↔
      ∃ p ∈ run, (p.operand w).Holds w := by
  rcases cases_of_mem_runsOn h with ⟨p, rfl, hp⟩ | ⟨root, hroot⟩
  · have hclauses : runClauses .should [p] = [p.clause] := by simp [runClauses, hp]
    rw [hclauses]
    simpa using (holds_operand_of_none hp).symm
  · have hne := ne_nil_of_mem_runsOn h
    have hmap : run.map clause ≠ [] := by simpa using hne
    rw [runClauses_of_same hne hroot]
    simp only [List.mem_singleton, exists_eq_left, Clause.holds_nested, holds_filterOf_should hmap]
    constructor
    · rintro ⟨e, he, c, hc, hholds⟩
      obtain ⟨p, hp, rfl⟩ := List.mem_map.mp hc
      exact ⟨p, hp, (holds_operand_of_some (hroot p hp)).mpr ⟨e, he, hholds⟩⟩
    · rintro ⟨p, hp, hholds⟩
      obtain ⟨e, he, hholds⟩ := (holds_operand_of_some (hroot p hp)).mp hholds
      exact ⟨e, he, p.clause, List.mem_map_of_mem hp, hholds⟩

/-! ### Scopes -/

theorem holds_grouped_must (ps : List Part) :
    (Clause.bool .must (grouped .must ps)).Holds w w.root ↔
      Operand.AllHold w (ps.map (operand w)) := by
  rw [Clause.holds_must, Operand.AllHold, runsOn_operand]
  simp only [grouped, List.forall_mem_map, List.forall_mem_flatMap]
  exact forall₂_congr fun run hrun => holds_run_must hrun

theorem holds_grouped_should (ps : List Part) :
    (Clause.bool .should (grouped .should ps)).Holds w w.root ↔
      Operand.AnyHolds w (ps.map (operand w)) := by
  rw [Clause.holds_should, Operand.AnyHolds, grouped_eq_nil_iff, List.map_eq_nil_iff]
  refine or_congr_right ?_
  constructor
  · rintro ⟨c, hc, hholds⟩
    obtain ⟨run, hrun, hc⟩ := List.mem_flatMap.mp hc
    obtain ⟨p, hp, hholds⟩ := (holds_run_should hrun).mp ⟨c, hc, hholds⟩
    have hmem : p ∈ ps := exists_mem_runsOn.mp ⟨run, hrun, hp⟩
    exact ⟨p.operand w, List.mem_map_of_mem hmem, hholds⟩
  · rintro ⟨o, ho, hholds⟩
    obtain ⟨p, hp, rfl⟩ := List.mem_map.mp ho
    obtain ⟨run, hrun, hmem⟩ := exists_mem_runsOn.mpr hp
    obtain ⟨c, hc, hholds⟩ := (holds_run_should hrun).mpr ⟨p, hmem, hholds⟩
    exact ⟨c, List.mem_flatMap.mpr ⟨run, hrun, hc⟩, hholds⟩

theorem holds_grouped_mustNot (p : Part) :
    (Clause.bool .mustNot (grouped .mustNot [p])).Holds w w.root ↔ ¬(p.operand w).Holds w := by
  rw [Clause.holds_mustNot, grouped_singleton, List.forall_mem_singleton, holds_alone]

end Part

/-! ### Conditions -/

namespace Condition

variable {w : World}

/-- What a condition asks, as the conjunction around it sees it. -/
def operand (w : World) (c : Condition) : Operand := c.part.operand w

theorem operand_all (cs : List Condition) :
    (all cs).operand w = .settled (Operand.AllHold w (cs.map (operand w))) := by
  have hparts : cs.map (operand w) = (partsOf cs).map (Part.operand w) := by
    rw [partsOf_eq_map, List.map_map]
    rfl
  rw [hparts]
  exact congrArg Operand.settled (propext (Part.holds_grouped_must (partsOf cs)))

theorem operand_any (cs : List Condition) :
    (any cs).operand w = .settled (Operand.AnyHolds w (cs.map (operand w))) := by
  have hparts : cs.map (operand w) = (partsOf cs).map (Part.operand w) := by
    rw [partsOf_eq_map, List.map_map]
    rfl
  rw [hparts]
  exact congrArg Operand.settled (propext (Part.holds_grouped_should (partsOf cs)))

theorem operand_not (c : Condition) :
    (Condition.not c).operand w = .settled (¬(c.operand w).Holds w) :=
  congrArg Operand.settled (propext (Part.holds_grouped_mustNot c.part))

theorem operand_negatedWhen (negated : Bool) (c : Condition) :
    (c.negatedWhen negated).operand w = (c.operand w).negatedWhen w negated := by
  cases negated with
  | true => exact operand_not c
  | false => rfl

theorem operand_joined {join : List Condition → Condition} {meaning : List Operand → Prop}
    (h : ∀ cs, (join cs).operand w = .settled (meaning (cs.map (operand w))))
    (cs : List Condition) :
    (joined join cs).operand w = .joined meaning (cs.map (operand w)) := by
  match cs with
  | [] => exact h []
  | [c] => rfl
  | c :: c' :: rest => exact h (c :: c' :: rest)

end Condition

/-! ### Filters -/

namespace Filter

section Conditions

variable {t : RecordType} {w : World}

theorem operand_ofLeaf {x : Except StoreError PlacedLeaf} {c : Condition}
    (h : (do .ok (.leaf (← x))) = Except.ok c) : c.operand w = .ofLeaf x := by
  obtain ⟨l, rfl, rfl⟩ := ok_of_bind_ok h
  rfl

theorem operand_negatedLeaf {x : Except StoreError PlacedLeaf} {c : Condition} {negated : Bool}
    (h : (do .ok (.negatedWhen negated (.leaf (← x)))) = Except.ok c) :
    c.operand w = .negatedWhen w negated (.ofLeaf x) := by
  obtain ⟨l, rfl, rfl⟩ := ok_of_bind_ok h
  exact Condition.operand_negatedWhen negated (.leaf l)

theorem operand_equalsCondition {path : String} {value : Scalar} {c : Condition}
    (h : equalsCondition t path value = .ok c) : c.operand w = equalsOperand t w path value := by
  unfold equalsCondition at h
  unfold equalsOperand
  split at h
  next hnull =>
    rw [if_pos hnull]
    have hnegated : (do .ok (.negatedWhen true (.leaf (← existsLeaf t path)))) = Except.ok c := h
    exact operand_negatedLeaf hnegated
  next hnull =>
    rw [if_neg hnull]
    exact operand_ofLeaf h

theorem operands_allEquals {pairs : List (String × Scalar)} {cs : List Condition}
    (h : (pairs.mapM fun p => equalsCondition t p.1 p.2) = .ok cs) :
    cs.map (Condition.operand w) = pairs.map fun p => equalsOperand t w p.1 p.2 := by
  induction pairs generalizing cs with
  | nil =>
    obtain rfl := Except.ok.inj h
    rfl
  | cons p rest ih =>
    rw [List.mapM_cons] at h
    obtain ⟨c, hc, h⟩ := ok_of_bind h
    obtain ⟨cs, hcs, rfl⟩ := ok_of_bind_ok h
    rw [List.map_cons, List.map_cons, operand_equalsCondition hc, ih hcs]

mutual

/-- The condition of a filter asks what the filter asks. -/
theorem operand_condition {f : Filter} {c : Condition} (h : condition t f = .ok c) :
    c.operand w = operand t w f := by
  cases f with
  | and children =>
    rw [condition] at h
    obtain ⟨cs, hcs, rfl⟩ := ok_of_bind_ok h
    rw [Condition.operand_joined Condition.operand_all, operands_conditions hcs, operand]
  | or children =>
    rw [condition] at h
    obtain ⟨cs, hcs, rfl⟩ := ok_of_bind_ok h
    rw [Condition.operand_joined Condition.operand_any, operands_conditions hcs, operand]
  | not child =>
    rw [condition] at h
    obtain ⟨c, hc, rfl⟩ := ok_of_bind_ok h
    rw [Condition.operand_not, operand_condition hc, operand]
  | equals path value => exact operand_equalsCondition h
  | notEquals path value =>
    rw [condition] at h
    obtain ⟨c, hc, rfl⟩ := ok_of_bind_ok h
    rw [Condition.operand_not, operand_equalsCondition hc, operand]
  | allEquals pairs =>
    rw [condition] at h
    obtain ⟨cs, hcs, rfl⟩ := ok_of_bind_ok h
    rw [Condition.operand_all, operands_allEquals hcs, operand]
  | range path bound => exact operand_ofLeaf h
  | oneOf path values negated => exact operand_negatedLeaf h
  | ids values => exact operand_ofLeaf h
  | like path text type caseInsensitive =>
    rw [condition] at h
    obtain ⟨ls, hls, rfl⟩ := ok_of_bind_ok h
    rw [Condition.operand_joined Condition.operand_all, operand, likeOperand, hls, List.map_map]
    rfl
  | «exists» path mustExist => exact operand_negatedLeaf h

theorem operands_conditions {fs : List Filter} {cs : List Condition}
    (h : conditions t fs = .ok cs) : cs.map (Condition.operand w) = operands t w fs := by
  match fs with
  | [] =>
    obtain rfl := Except.ok.inj h
    rfl
  | f :: rest =>
    rw [conditions] at h
    obtain ⟨c, hc, h⟩ := ok_of_bind h
    obtain ⟨cs, hcs, rfl⟩ := ok_of_bind_ok h
    rw [List.map_cons, operand_condition hc, operands_conditions hcs, operands]

end

/-! ### Compiled clauses -/

theorem holds_idsLeaf {id : Scalar} {l : PlacedLeaf} (h : idsLeaf [id] = .ok l) :
    l.manyRoot = none ∧ (w.test l.clause w.root ↔
      ∃ j, id.toJson = .ok j ∧ w.test (.ids [j]) w.root) := by
  obtain ⟨js, hjs, rfl⟩ := ok_of_bind_ok h
  refine ⟨rfl, ?_⟩
  cases hid : id.toJson with
  | error e => simp [Scalar.allToJson, hid] at hjs
  | ok j =>
    obtain rfl : [j] = js := by simpa [Scalar.allToJson, hid] using hjs
    simp

/-- The clause of an id and a filter is true of the documents that have the id and of which the
filter is true, and of no others. -/
theorem holds_of_compile {id : Option Scalar} {filter : Option Filter} {c : Clause}
    (h : compile t id filter = .ok c) :
    c.Holds w w.root ↔
      (∀ i ∈ id, ∃ j, i.toJson = .ok j ∧ w.test (.ids [j]) w.root) ∧
        ∀ f ∈ filter, f.Holds t w := by
  cases id with
  | some i =>
    cases filter with
    | some f =>
      rw [compile_id_filter] at h
      obtain ⟨l, hl, h⟩ := ok_of_bind h
      obtain ⟨cs, hcs, rfl⟩ := ok_of_bind_ok h
      obtain ⟨hnone, htest⟩ := holds_idsLeaf (w := w) hl
      rw [Part.holds_grouped_must, List.map_cons, List.map_map]
      change Operand.AllHold w (.leaf l :: cs.map (Condition.operand w)) ↔ _
      have hroot : (Operand.leaf l).manyRoot = none := hnone
      rw [Operand.allHold_cons_of_none hroot, operands_conditions hcs, allHold_conjuncts]
      simpa [Operand.At] using and_congr_left fun _ => htest
    | none =>
      rw [compile_id] at h
      obtain ⟨l, hl, rfl⟩ := ok_of_map h
      obtain ⟨hnone, htest⟩ := holds_idsLeaf (w := w) hl
      have hroot : (Part.bare l).manyRoot = none := hnone
      rw [Part.holds_alone, Part.holds_operand_of_none hroot]
      simpa [Part.clause] using htest
  | none =>
    cases filter with
    | some f =>
      rw [compile_filter] at h
      obtain ⟨c, hc, rfl⟩ := ok_of_map h
      rw [Part.holds_alone]
      change (c.operand w).Holds w ↔ _
      rw [operand_condition hc]
      simp [Filter.Holds]
    | none => cases h

end Conditions

end Filter

/-! ### Query documents -/

/-- Whatever else a query document asks for, its query says which documents are wanted. -/
theorem Query.get?_query_of_compile {q : Query} {j : Json} (h : q.compile = .ok j) :
    ∃ clause, q.clauseJson = .ok clause ∧ j.get? "query" = some clause := by
  obtain ⟨clause, hclause, rfl⟩ := ok_of_bind_ok h
  refine ⟨clause, hclause, ?_⟩
  rw [Json.ofMembers, Json.get?, Members.find?_ofList_framed [("query", clause)]]
  · rfl
  · rw [SelectedPaths.toEntries]
    split <;> split <;> split <;> split <;> simp
  · split <;> simp

def orders : RecordType :=
  ⟨"order", ((Mapping.empty "orders" "order").property "lines" .list).property "lines.item" .string,
    "id"⟩

/-- An order of a pen and of ink, each on a line of its own. -/
def penAndInk : World where
  Record := String
  root := "order"
  elements := fun _ => ["pen", "ink"]
  test := fun l x =>
    match l with
    | .term _ (.string item) => x = item
    | _ => True

/-- Asks for an order with both items on the same line. -/
def bothItems : Query :=
  { Query.all orders with
    id := some (.text "7")
    filter := some (.and [.equals "lines.item" (.text "pen"), .equals "lines.item" (.text "ink")]) }

end DocumentSearch
