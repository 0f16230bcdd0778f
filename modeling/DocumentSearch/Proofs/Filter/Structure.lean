import DocumentSearch.Proofs.Clause.Assembly
import DocumentSearch.Proofs.Filter.Condition

/-!
# The clause of a filter

Writing a filter into a draft is finding its condition and then adding one part, whatever the draft
holds and whatever is open in it. So no nested scope outlives the scope it stands in, none is ended
early, and the clause of a filter is the recursion `clauseOf`.
-/

namespace DocumentSearch

namespace Filter

/-- Writing comes to finding a condition and adding its part, to any draft. -/
def Writes (write : Draft → Except StoreError Draft) (x : Except StoreError Condition) : Prop :=
  ∀ d, write d = x.map fun c => d.add c.part

/-- Writing comes to finding conditions and adding their parts in order, to any draft. -/
def WritesAll (write : Draft → Except StoreError Draft) (x : Except StoreError (List Condition)) :
    Prop :=
  ∀ d, write d = x.map fun cs => d.addAll (cs.map Condition.part)

/-! ### Scopes -/

section Scopes

variable {write : Draft → Except StoreError Draft} {x : Except StoreError Condition}
  {xs : Except StoreError (List Condition)}

theorem WritesAll.inScope_eq (h : WritesAll write xs) (occur : Occur) (d : Draft) :
    inScope occur write d =
      xs.map fun cs => d.add (.bool occur (Part.grouped occur (cs.map Condition.part))) := by
  rw [inScope, h]
  cases xs with
  | error e => rfl
  | ok cs => exact Draft.endBool_addAll_startBool d occur (cs.map Condition.part)

theorem WritesAll.inMust (h : WritesAll write xs) : Writes (inScope .must write) (xs.map .all) := by
  intro d
  rw [h.inScope_eq]
  cases xs with
  | error e => rfl
  | ok cs => simp [Except.map, Condition.part, Condition.partsOf_eq_map]

theorem WritesAll.inShould (h : WritesAll write xs) :
    Writes (inScope .should write) (xs.map .any) := by
  intro d
  rw [h.inScope_eq]
  cases xs with
  | error e => rfl
  | ok cs => simp [Except.map, Condition.part, Condition.partsOf_eq_map]

theorem Writes.singleton (h : Writes write x) : WritesAll write (x.map fun c => [c]) := by
  intro d
  rw [h]
  cases x <;> rfl

theorem Writes.inMustNot (h : Writes write x) :
    Writes (inScope .mustNot write) (x.map .not) := by
  intro d
  rw [h.singleton.inScope_eq]
  cases x with
  | error e => rfl
  | ok c => simp [Except.map, Condition.part]

theorem Writes.negated (h : Writes write x) (negated : Bool) :
    Writes (negatedWhen negated write) (x.map (.negatedWhen negated)) := by
  cases negated with
  | true => exact h.inMustNot
  | false =>
    intro d
    rw [negatedWhen, if_neg Bool.false_ne_true, h]
    cases x <;> rfl

theorem writes_leaf (target : FieldTarget) (l : LeafClause) :
    Writes (fun d => .ok ((d.prepare target).emit l)) (.ok (.leaf ⟨target.manyRoot, l⟩)) := by
  intro d
  exact congrArg Except.ok (Draft.emit_prepare d target l)

end Scopes

/-! ### Leaves -/

section Leaves

variable (t : RecordType) (path : String)

/-- A leaf is found and read before the draft is touched, under a negation too. -/
theorem writes_leafAt {α : Type} (read : Except StoreError α)
    (clause : FieldTarget → α → LeafClause) (negated : Bool) :
    Writes
      (fun d => do
        let target ← t.resolve path
        let a ← read
        negatedWhen negated (fun d => .ok ((d.prepare target).emit (clause target a))) d)
      (do .ok (.negatedWhen negated (.leaf (← leafAt t path read clause)))) := by
  intro d
  rw [leafAt]
  cases t.resolve path with
  | error e => rfl
  | ok target =>
    cases read with
    | error e => rfl
    | ok a => exact (writes_leaf target (clause target a)).negated negated d

theorem writes_exists (mustExist : Bool) :
    Writes (writeExists t path mustExist)
      (do .ok (.negatedWhen (!mustExist) (.leaf (← existsLeaf t path)))) :=
  writes_leafAt t path (.ok ()) (fun _ _ => .exists path) (!mustExist)

theorem writes_equals (value : Scalar) :
    Writes (writeEquals t path value) (equalsCondition t path value) := by
  intro d
  rw [writeEquals, equalsCondition]
  split
  · exact writes_exists t path false d
  · exact writes_leafAt t path value.toJson (fun target j => .term target.rawField j) false d

theorem writesAll_allEquals (pairs : List (String × Scalar)) :
    WritesAll (writeAllEquals t pairs) (pairs.mapM fun p => equalsCondition t p.1 p.2) := by
  induction pairs with
  | nil => intro d; rfl
  | cons p rest ih =>
    intro d
    rw [List.mapM_cons, writeAllEquals, writes_equals]
    cases equalsCondition t p.1 p.2 with
    | error e => rfl
    | ok c =>
      change writeAllEquals t rest (d.add c.part) = _
      rw [ih]
      cases rest.mapM fun p => equalsCondition t p.1 p.2 <;> rfl

theorem writes_range (bound : RangeBound) :
    Writes (writeRange t path bound) (do .ok (.leaf (← rangeLeaf t path bound))) :=
  writes_leafAt t path (boundsOf path bound) (fun target bounds => .range target.rawField bounds)
    false

theorem writes_oneOf (values : List Scalar) (negated : Bool) :
    Writes (writeOneOf t path values negated)
      (do .ok (.negatedWhen negated (.leaf (← termsLeaf t path values)))) :=
  writes_leafAt t path (Scalar.allToJson values) (fun target js => .terms target.rawField js)
    negated

theorem writes_ids (values : List Scalar) :
    Writes (writeIds values) (do .ok (.leaf (← idsLeaf values))) := by
  intro d
  rw [writeIds, idsLeaf]
  cases Scalar.allToJson values <;> rfl

theorem writeWords_eq (target : FieldTarget) (ws : List String) (d : Draft) :
    writeWords target path d ws =
      d.addAll (ws.map fun w => .bare ⟨target.manyRoot, .fullText path w⟩) := by
  induction ws generalizing d with
  | nil => rfl
  | cons w rest ih => rw [writeWords, ih, Draft.emit_prepare, List.map_cons, Draft.addAll_cons]

theorem writes_text (target : FieldTarget) (lower : String) :
    Writes (writeText target path lower)
      (.ok (.joined .all
        ((wordsOf lower).map fun w => .leaf ⟨target.manyRoot, .fullText path w⟩))) := by
  intro d
  rw [writeText, wordsOf]
  match Text.words lower with
  | [] => exact writes_leaf target (.fullText path "") d
  | [w] => exact writes_leaf target (.fullText path w) d
  | v :: w :: rest =>
    have hall : WritesAll (fun d => .ok (writeWords target path d (v :: w :: rest)))
        (.ok ((v :: w :: rest).map fun w => .leaf ⟨target.manyRoot, .fullText path w⟩)) := by
      intro d
      change Except.ok (writeWords target path d (v :: w :: rest)) = _
      rw [writeWords_eq]
      simp [Except.map, Condition.part, Function.comp_def]
    exact hall.inMust d

theorem writes_like (text : String) (type : LikeType) (caseInsensitive : Bool) :
    Writes (writeLike t path text type caseInsensitive)
      (do .ok (.joined .all ((← likeLeaves t path text type caseInsensitive).map .leaf))) := by
  intro d
  rw [writeLike, likeLeaves]
  cases h : t.resolve path with
  | error e => rfl
  | ok target =>
    by_cases htext : target.kind.isText
    · simp only [bind, Except.bind, htext, if_true]
      generalize Text.lowercase text = lower
      cases type with
      | raw => exact writes_leaf target _ d
      | startsWith => exact writes_leaf target _ d
      | endsWith => exact writes_leaf target _ d
      | contains => exact writes_leaf target _ d
      | equalTo =>
        cases caseInsensitive with
        | true =>
          have hwords := writes_text path target lower d
          simpa [Except.map, List.map_map, Function.comp_def] using hwords
        | false =>
          refine (writes_equals t path (.text text) d).trans ?_
          simp only [equalsCondition, Scalar.isNull]
          cases termLeaf t path (.text text) <;> rfl
    · simp only [bind, Except.bind, htext]
      rfl

end Leaves

/-! ### Trees -/

section Trees

variable (t : RecordType)

theorem writesAll_nil : WritesAll .ok (.ok []) := fun _ => rfl

/-- Conditions of a scope are found and written one after the other. -/
theorem WritesAll.cons {first : Draft → Except StoreError Draft} {x : Except StoreError Condition}
    {others : Draft → Except StoreError Draft} {xs : Except StoreError (List Condition)}
    (hfirst : Writes first x) (hothers : WritesAll others xs) :
    WritesAll (fun d => do others (← first d)) (do .ok ((← x) :: (← xs))) := by
  intro d
  dsimp only
  rw [hfirst]
  cases x with
  | error e => rfl
  | ok c =>
    refine (hothers (d.add c.part)).trans ?_
    cases xs <;> rfl

private theorem bind_ok_eq_map {α β : Type} (x : Except StoreError α) (g : α → β) :
    (do .ok (g (← x))) = x.map g := by
  cases x <;> rfl

mutual

/-- Writing a filter adds the part of its condition to whatever has been written. -/
theorem writes_writeTo (f : Filter) : Writes (writeTo t f) (condition t f) := by
  cases f with
  | and children =>
    rw [condition]
    exact writes_writeJunction WritesAll.inMust children
  | or children =>
    rw [condition]
    exact writes_writeJunction WritesAll.inShould children
  | not child =>
    rw [condition, bind_ok_eq_map]
    exact (writes_writeTo child).inMustNot
  | equals path value => exact writes_equals t path value
  | notEquals path value =>
    rw [condition, bind_ok_eq_map]
    exact (writes_equals t path value).inMustNot
  | allEquals pairs =>
    rw [condition, bind_ok_eq_map]
    exact (writesAll_allEquals t pairs).inMust
  | range path bound => exact writes_range t path bound
  | oneOf path values negated => exact writes_oneOf t path values negated
  | ids values => exact writes_ids values
  | like path text type caseInsensitive => exact writes_like t path text type caseInsensitive
  | «exists» path mustExist => exact writes_exists t path mustExist

theorem writes_writeJunction {occur : Occur} {join : List Condition → Condition}
    (hscope : ∀ {write xs}, WritesAll write xs → Writes (inScope occur write) (xs.map join))
    (fs : List Filter) :
    Writes (writeJunction t occur fs) (do .ok (.joined join (← conditions t fs))) := by
  match fs with
  | [] => exact hscope writesAll_nil
  | [f] =>
    intro d
    refine (writes_writeTo f d).trans ?_
    rw [conditions]
    cases condition t f <;> rfl
  | f :: g :: rest =>
    have hall := WritesAll.cons (writes_writeTo f)
      (WritesAll.cons (writes_writeTo g) (writesAll_writeEach rest))
    intro d
    refine (hscope hall d).trans ?_
    rw [conditions, conditions]
    cases condition t f with
    | error e => rfl
    | ok c =>
      cases condition t g with
      | error e => rfl
      | ok c' => cases conditions t rest <;> rfl

theorem writesAll_writeEach (fs : List Filter) : WritesAll (writeEach t fs) (conditions t fs) := by
  match fs with
  | [] => exact writesAll_nil
  | f :: rest => exact WritesAll.cons (writes_writeTo f) (writesAll_writeEach rest)

end

/-- A draft into which one condition is written is finished as that condition alone. -/
theorem Writes.finish {write : Draft → Except StoreError Draft} {x : Except StoreError Condition}
    (h : Writes write x) : (do (← write .blank).finish) = x.map fun c => c.part.alone := by
  rw [h]
  cases x with
  | error e => rfl
  | ok c => exact Draft.finish_add_blank c.part

theorem compile_filter (f : Filter) :
    compile t none (some f) = (condition t f).map fun c => c.part.alone :=
  (writes_writeTo t f).finish

theorem compile_id (id : Scalar) :
    compile t (some id) none = (idsLeaf [id]).map fun l => Part.alone (.bare l) := by
  refine (writes_ids [id]).finish.trans ?_
  cases idsLeaf [id] <;> rfl

theorem compile_id_filter (id : Scalar) (f : Filter) :
    compile t (some id) (some f) = (do
      let l ← idsLeaf [id]
      let cs ← conditions t f.conjuncts
      .ok (.bool .must (Part.grouped .must (.bare l :: cs.map Condition.part)))) := by
  have hboth := WritesAll.cons (writes_ids [id]) (writesAll_writeEach t f.conjuncts)
  refine hboth.inMust.finish.trans ?_
  cases idsLeaf [id] with
  | error e => rfl
  | ok l =>
    cases conditions t f.conjuncts with
    | error e => rfl
    | ok cs =>
      simp [Except.map, bind, Except.bind, Condition.part, Condition.partsOf_eq_map, Part.alone,
        Part.manyRoot, Part.clause]

/-- The clause put together in a draft, with its stack of scopes and its one nested scope, is the
one that recursion on the filter gives, and where one fails the other fails alike. -/
theorem compile_eq_clauseOf (id : Option Scalar) (filter : Option Filter) :
    compile t id filter = clauseOf t id filter := by
  cases id with
  | some id =>
    cases filter with
    | some f => exact compile_id_filter t id f
    | none =>
      rw [compile_id, clauseOf]
      cases idsLeaf [id] <;> rfl
  | none =>
    cases filter with
    | some f =>
      rw [compile_filter, clauseOf]
      cases condition t f <;> rfl
    | none => rfl

end Trees

end Filter

end DocumentSearch
