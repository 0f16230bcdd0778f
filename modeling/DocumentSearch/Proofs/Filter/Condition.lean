import DocumentSearch.Filter.Compile
import DocumentSearch.Proofs.Clause.Part

/-!
# Conditions

A condition is what a filter asks for once its leaves have found their properties and read their
values: leaf clauses, each under its many root, joined by *all*, *any* and *not*. Finding the
condition can fail, and everything that can go wrong in a filter goes wrong there, from left to
right. From the condition on, the clause is a plain recursion: each condition is a part of the scope
around it, and a scope holds the grouped clauses of its parts.
-/

namespace DocumentSearch

/-! ### Success -/

section Success

variable {ε α β : Type} {x : Except ε α} {b : β}

theorem ok_of_bind {g : α → Except ε β} (h : (do g (← x)) = .ok b) :
    ∃ a, x = .ok a ∧ g a = .ok b := by
  cases x with
  | error e => cases h
  | ok a => exact ⟨a, rfl, h⟩

theorem ok_of_bind_ok {g : α → β} (h : (do .ok (g (← x))) = Except.ok b) :
    ∃ a, x = .ok a ∧ g a = b := by
  obtain ⟨a, ha, hb⟩ := ok_of_bind h
  exact ⟨a, ha, Except.ok.inj hb⟩

theorem ok_of_map {g : α → β} (h : x.map g = .ok b) : ∃ a, x = .ok a ∧ g a = b := by
  cases x with
  | error e => cases h
  | ok a => exact ⟨a, rfl, Except.ok.inj h⟩

end Success

/-! ### Conditions -/

inductive Condition where
  | leaf (l : PlacedLeaf)
  | all (conditions : List Condition)
  | any (conditions : List Condition)
  | not (condition : Condition)

namespace Condition

/-- Conditions joined by `join`; one stands alone. -/
def joined (join : List Condition → Condition) : List Condition → Condition
  | [c] => c
  | cs => join cs

def negatedWhen (negated : Bool) (c : Condition) : Condition := if negated then .not c else c

mutual

/-- What a condition puts into the scope around it. -/
def part : Condition → Part
  | .leaf l => .bare l
  | .all cs => .bool .must (Part.grouped .must (partsOf cs))
  | .any cs => .bool .should (Part.grouped .should (partsOf cs))
  | .not c => .bool .mustNot (Part.grouped .mustNot [c.part])

def partsOf : List Condition → List Part
  | [] => []
  | c :: rest => c.part :: partsOf rest

end

theorem partsOf_eq_map (cs : List Condition) : partsOf cs = cs.map part := by
  induction cs with
  | nil => rfl
  | cons c rest ih => rw [partsOf, ih, List.map_cons]

end Condition

namespace Filter

/-! ### Leaves -/

/-- The leaf of a property, whose clause is made from where the property is found and from what is
read after it is found. -/
def leafAt {α : Type} (t : RecordType) (path : String) (read : Except StoreError α)
    (clause : FieldTarget → α → LeafClause) : Except StoreError PlacedLeaf := do
  let target ← t.resolve path
  let a ← read
  .ok ⟨target.manyRoot, clause target a⟩

def existsLeaf (t : RecordType) (path : String) : Except StoreError PlacedLeaf :=
  leafAt t path (.ok ()) fun _ _ => .exists path

def termLeaf (t : RecordType) (path : String) (value : Scalar) : Except StoreError PlacedLeaf :=
  leafAt t path value.toJson fun target j => .term target.rawField j

def rangeLeaf (t : RecordType) (path : String) (bound : RangeBound) :
    Except StoreError PlacedLeaf :=
  leafAt t path (boundsOf path bound) fun target bounds => .range target.rawField bounds

def termsLeaf (t : RecordType) (path : String) (values : List Scalar) :
    Except StoreError PlacedLeaf :=
  leafAt t path (Scalar.allToJson values) fun target js => .terms target.rawField js

def idsLeaf (values : List Scalar) : Except StoreError PlacedLeaf := do
  let js ← Scalar.allToJson values
  .ok ⟨none, .ids js⟩

/-- The words that a text is compared by; a text without words is compared as the empty one. -/
def wordsOf (lower : String) : List String :=
  match Text.words lower with
  | [] => [""]
  | ws => ws

/-- The leaves of a pattern: one, or one for each word of a text compared without regard to case. -/
def likeLeaves (t : RecordType) (path text : String) (type : LikeType) (caseInsensitive : Bool) :
    Except StoreError (List PlacedLeaf) := do
  let target ← t.resolve path
  if target.kind.isText then
    let lower := Text.lowercase text
    let one (l : LeafClause) : Except StoreError (List PlacedLeaf) := .ok [⟨target.manyRoot, l⟩]
    match type with
    | .raw => one (.wildcard path (wildcardOf lower))
    | .startsWith => one (.startsWith path lower)
    | .endsWith => one (.wildcard path ("*" ++ lower))
    | .contains => one (.wildcard path ("*" ++ lower ++ "*"))
    | .equalTo =>
      if caseInsensitive then
        .ok ((wordsOf lower).map fun w => ⟨target.manyRoot, .fullText path w⟩)
      else do .ok [← termLeaf t path (.text text)]
  else .error (.compilation (.likeOnNonText path target.kind.name))

/-! ### Trees -/

/-- Equality with null asks that the property does not exist. -/
def equalsCondition (t : RecordType) (path : String) (value : Scalar) :
    Except StoreError Condition :=
  if value.isNull then do .ok (.not (.leaf (← existsLeaf t path)))
  else do .ok (.leaf (← termLeaf t path value))

mutual

/-- What a filter asks for. -/
def condition (t : RecordType) : Filter → Except StoreError Condition
  | .and children => do .ok (.joined .all (← conditions t children))
  | .or children => do .ok (.joined .any (← conditions t children))
  | .not child => do .ok (.not (← condition t child))
  | .equals path value => equalsCondition t path value
  | .notEquals path value => do .ok (.not (← equalsCondition t path value))
  | .allEquals pairs => do .ok (.all (← pairs.mapM fun p => equalsCondition t p.1 p.2))
  | .range path bound => do .ok (.leaf (← rangeLeaf t path bound))
  | .oneOf path values negated => do
    .ok (.negatedWhen negated (.leaf (← termsLeaf t path values)))
  | .ids values => do .ok (.leaf (← idsLeaf values))
  | .like path text type caseInsensitive => do
    .ok (.joined .all ((← likeLeaves t path text type caseInsensitive).map .leaf))
  | .exists path mustExist => do
    .ok (.negatedWhen (!mustExist) (.leaf (← existsLeaf t path)))

def conditions (t : RecordType) : List Filter → Except StoreError (List Condition)
  | [] => .ok []
  | f :: rest => do
    let c ← condition t f
    let cs ← conditions t rest
    .ok (c :: cs)

end

/-- The clause of an id and a filter, by recursion alone. The two together share one `must` scope,
in which the parts of a conjunction stand side by side. -/
def clauseOf (t : RecordType) (id : Option Scalar) (filter : Option Filter) :
    Except StoreError Clause :=
  match id, filter with
  | some id, some f => do
    let l ← idsLeaf [id]
    let cs ← conditions t f.conjuncts
    .ok (.bool .must (Part.grouped .must (.bare l :: cs.map Condition.part)))
  | some id, none => do .ok (Part.alone (.bare (← idsLeaf [id])))
  | none, some f => do .ok (← condition t f).part.alone
  | none, none => .error (.compilation .noClause)

end Filter

end DocumentSearch
