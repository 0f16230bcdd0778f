import DocumentSearch.Proofs.Clause.Part

/-!
# What a clause means

A document as the engine sees it is a record and, under each many root, the elements of a list. A
leaf clause is any fixed test of a record or an element. A `bool` clause asks for all, any or none
of its clauses, and for nothing when it has none; a `nested` clause asks for a single element that
satisfies its filter.
-/

namespace DocumentSearch

structure World where
  Record : Type
  root : Record
  /-- The elements of the list at a many root. -/
  elements : String → List Record
  test : LeafClause → Record → Prop

namespace Clause

mutual

def Holds (w : World) : Clause → w.Record → Prop
  | .leaf l, x => w.test l x
  | .bool .must cs, x => AllHold w cs x
  | .bool .should cs, x => cs = [] ∨ AnyHolds w cs x
  | .bool .mustNot cs, x => ¬AnyHolds w cs x
  | .nested path filter, _ => ∃ e ∈ w.elements path, Holds w filter e

def AllHold (w : World) : List Clause → w.Record → Prop
  | [], _ => True
  | c :: rest, x => Holds w c x ∧ AllHold w rest x

def AnyHolds (w : World) : List Clause → w.Record → Prop
  | [], _ => False
  | c :: rest, x => Holds w c x ∨ AnyHolds w rest x

end

variable {w : World} {x : w.Record}

theorem allHold_iff {cs : List Clause} : AllHold w cs x ↔ ∀ c ∈ cs, Holds w c x := by
  induction cs with
  | nil => simp [AllHold]
  | cons c rest ih => simp [AllHold, ih]

theorem anyHolds_iff {cs : List Clause} : AnyHolds w cs x ↔ ∃ c ∈ cs, Holds w c x := by
  induction cs with
  | nil => simp [AnyHolds]
  | cons c rest ih => simp [AnyHolds, ih]

@[simp] theorem holds_leaf {l : LeafClause} : Holds w (.leaf l) x ↔ w.test l x := by
  rw [Holds]

@[simp] theorem holds_must {cs : List Clause} :
    Holds w (.bool .must cs) x ↔ ∀ c ∈ cs, Holds w c x := by
  rw [Holds, allHold_iff]

@[simp] theorem holds_should {cs : List Clause} :
    Holds w (.bool .should cs) x ↔ cs = [] ∨ ∃ c ∈ cs, Holds w c x := by
  rw [Holds, anyHolds_iff]

@[simp] theorem holds_mustNot {cs : List Clause} :
    Holds w (.bool .mustNot cs) x ↔ ∀ c ∈ cs, ¬Holds w c x := by
  rw [Holds, anyHolds_iff]
  simp

@[simp] theorem holds_nested {path : String} {filter : Clause} :
    Holds w (.nested path filter) x ↔ ∃ e ∈ w.elements path, Holds w filter e := by
  rw [Holds]

end Clause

end DocumentSearch
