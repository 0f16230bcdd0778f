import DocumentSearch.Proofs.Clause.Meaning
import DocumentSearch.Proofs.Filter.Condition

/-!
# What a filter means

The meaning of a filter is told on the filter itself. What a filter asks is either a leaf, which
neighbours in a conjunction may share an element with, or something that the document settles as a
whole. A conjunction is true when each of its runs on one many root is passed by a single element
and everything else in it is true.
-/

namespace DocumentSearch

/-- What a filter asks, as the conjunction around it sees it. -/
inductive Operand where
  | leaf (l : PlacedLeaf)
  | settled (p : Prop)

namespace Operand

variable (w : World)

def manyRoot : Operand → Option String
  | .leaf l => l.manyRoot
  | .settled _ => none

def At (x : w.Record) : Operand → Prop
  | .leaf l => w.test l.clause x
  | .settled p => p

/-- Operands that hold together: those on one many root by a single element of its list. -/
def HoldTogether (run : List Operand) : Prop :=
  match run.head?.bind manyRoot with
  | none => ∀ o ∈ run, o.At w w.root
  | some root => ∃ e ∈ w.elements root, ∀ o ∈ run, o.At w e

def Holds (o : Operand) : Prop := HoldTogether w [o]

/-- Each run of neighbours on one many root holds together, and all else holds. -/
def AllHold (os : List Operand) : Prop := ∀ run ∈ runsOn manyRoot os, HoldTogether w run

/-- One of them holds, or there is none. -/
def AnyHolds (os : List Operand) : Prop := os = [] ∨ ∃ o ∈ os, o.Holds w

/-- A junction of one operand is that operand. -/
def joined (join : List Operand → Prop) : List Operand → Operand
  | [o] => o
  | os => .settled (join os)

def negatedWhen (negated : Bool) (o : Operand) : Operand :=
  if negated then .settled (¬o.Holds w) else o

/-- A leaf that is not valid asks for what no document has. -/
def ofLeaf : Except StoreError PlacedLeaf → Operand
  | .ok l => .leaf l
  | .error _ => .settled False

variable {w}

theorem holds_settled {p : Prop} : (settled p).Holds w ↔ p := by
  simp [Operand.Holds, HoldTogether, manyRoot, At]

theorem allHold_singleton {o : Operand} : AllHold w [o] ↔ o.Holds w := by
  simp [AllHold, Operand.Holds]

/-- What belongs to the document itself joins no run. -/
theorem allHold_cons_of_none {o : Operand} (h : o.manyRoot = none) (os : List Operand) :
    AllHold w (o :: os) ↔ o.At w w.root ∧ AllHold w os := by
  rw [AllHold, runsOn_cons_of_none h, List.forall_mem_cons, AllHold]
  simp [HoldTogether, h]

theorem holds_joined_allHold (os : List Operand) :
    (joined (AllHold w) os).Holds w ↔ AllHold w os := by
  match os with
  | [] => exact holds_settled
  | [o] => exact allHold_singleton.symm
  | o :: o' :: rest => exact holds_settled

theorem holds_joined_anyHolds (os : List Operand) :
    (joined (AnyHolds w) os).Holds w ↔ AnyHolds w os := by
  match os with
  | [] => exact holds_settled
  | [o] => simp [joined, AnyHolds]
  | o :: o' :: rest => exact holds_settled

end Operand

namespace Filter

section Operands

variable (t : RecordType) (w : World)

/-- Equality with null asks that the property does not exist. -/
def equalsOperand (path : String) (value : Scalar) : Operand :=
  if value.isNull then .settled (¬(Operand.ofLeaf (existsLeaf t path)).Holds w)
  else .ofLeaf (termLeaf t path value)

def likeOperand (path text : String) (type : LikeType) (caseInsensitive : Bool) : Operand :=
  match likeLeaves t path text type caseInsensitive with
  | .ok ls => .joined (Operand.AllHold w) (ls.map .leaf)
  | .error _ => .settled False

mutual

/-- What a filter asks of the document `w`. -/
def operand : Filter → Operand
  | .and children => .joined (Operand.AllHold w) (operands children)
  | .or children => .joined (Operand.AnyHolds w) (operands children)
  | .not child => .settled (¬(operand child).Holds w)
  | .equals path value => equalsOperand t w path value
  | .notEquals path value => .settled (¬(equalsOperand t w path value).Holds w)
  | .allEquals pairs =>
    .settled (Operand.AllHold w (pairs.map fun p => equalsOperand t w p.1 p.2))
  | .range path bound => .ofLeaf (rangeLeaf t path bound)
  | .oneOf path values negated => .negatedWhen w negated (.ofLeaf (termsLeaf t path values))
  | .ids values => .ofLeaf (idsLeaf values)
  | .like path text type caseInsensitive => likeOperand t w path text type caseInsensitive
  | .exists path mustExist => .negatedWhen w (!mustExist) (.ofLeaf (existsLeaf t path))

def operands : List Filter → List Operand
  | [] => []
  | f :: rest => operand f :: operands rest

end

theorem operands_eq_map (fs : List Filter) : operands t w fs = fs.map (operand t w) := by
  induction fs with
  | nil => rfl
  | cons f rest ih => rw [operands, ih, List.map_cons]

/-- Whether a filter on documents of type `t` is true of a document. -/
def Holds (f : Filter) : Prop := (operand t w f).Holds w

variable {t w}

theorem holds_and {fs : List Filter} :
    (Filter.and fs).Holds t w ↔ Operand.AllHold w (operands t w fs) := by
  rw [Filter.Holds, operand, Operand.holds_joined_allHold]

theorem holds_or {fs : List Filter} :
    (Filter.or fs).Holds t w ↔ fs = [] ∨ ∃ f ∈ fs, f.Holds t w := by
  rw [Filter.Holds, operand, Operand.holds_joined_anyHolds, Operand.AnyHolds, operands_eq_map]
  simp [Filter.Holds]

theorem holds_not {f : Filter} : (Filter.not f).Holds t w ↔ ¬f.Holds t w := by
  rw [Filter.Holds, operand, Operand.holds_settled, Filter.Holds]

/-- The conjuncts of a filter hold together exactly if the filter holds. -/
theorem allHold_conjuncts (f : Filter) :
    Operand.AllHold w (operands t w f.conjuncts) ↔ f.Holds t w := by
  cases f with
  | and children => exact holds_and.symm
  | _ => exact Operand.allHold_singleton

end Operands

end Filter

end DocumentSearch
