import DocumentSearch.Proofs.Filter.Leaves
import DocumentSearch.Proofs.Filter.Structure
import DocumentSearch.Query.Compile

/-!
# What is wrong with a request

A leaf can be wrong in three ways: its property is not mapped, its form does not suit the property,
or a value has no form in a query document. `Leaf.faults` lists all that is wrong with a leaf, in
this order, and `Query.faults` all that is wrong with a request, the id first. Compiling fails
exactly if the list is not empty, and then with its first entry: no scope that is open, and no check
that is made only after one has been opened, comes before it.
-/

namespace DocumentSearch

/-! ### Failing with the first fault -/

/-- A computation fails with the first of the faults, and succeeds when there is none. -/
def FailsWith {ε α : Type} (x : Except ε α) (faults : List ε) : Prop :=
  ∀ e, x = .error e ↔ faults.head? = some e

section FailsWith

variable {ε α β : Type} {x : Except ε α} {xs ys : List ε}

theorem failsWith_ok (a : α) : FailsWith (.ok a : Except ε α) [] := by
  simp [FailsWith]

theorem failsWith_error (e : ε) (rest : List ε) :
    FailsWith (.error e : Except ε α) (e :: rest) := by
  simp [FailsWith]

theorem FailsWith.eq_nil_of_ok {a : α} (h : FailsWith x xs) (hx : x = .ok a) : xs = [] := by
  cases xs with
  | nil => rfl
  | cons e rest =>
    have herror : x = .error e := (h e).mpr rfl
    rw [hx] at herror
    cases herror

theorem FailsWith.exists_ok (h : FailsWith x []) : ∃ a, x = .ok a := by
  cases hx : x with
  | ok a => exact ⟨a, rfl⟩
  | error e => cases (h e).mp hx

theorem FailsWith.exists_error_iff (h : FailsWith x xs) : (∃ e, x = .error e) ↔ xs ≠ [] := by
  rw [← List.isSome_head?, Option.isSome_iff_exists]
  exact exists_congr h

/-- Faults of what comes first are met first. -/
theorem FailsWith.bind {f : α → Except ε β} (hx : FailsWith x xs)
    (hf : ∀ a, x = .ok a → FailsWith (f a) ys) : FailsWith (do f (← x)) (xs ++ ys) := by
  cases h : x with
  | error e =>
    have hhead : xs.head? = some e := (hx e).mp h
    obtain ⟨rest, rfl⟩ := List.head?_eq_some_iff.mp hhead
    exact failsWith_error e (rest ++ ys)
  | ok a =>
    rw [hx.eq_nil_of_ok h]
    exact hf a h

theorem FailsWith.bind_ok {f : α → β} (hx : FailsWith x xs) :
    FailsWith (do .ok (f (← x))) xs := by
  have hbind := hx.bind fun a _ => failsWith_ok (ε := ε) (f a)
  rwa [List.append_nil] at hbind

theorem failsWith_map_iff {f : α → β} : FailsWith (x.map f) xs ↔ FailsWith x xs := by
  cases x <;> simp [FailsWith, Except.map]

end FailsWith

/-! ### Values -/

/-- A double that is not finite has no form in a query document. -/
def Scalar.faults : Scalar → List StoreError
  | .numeric x => if x.isFinite then [] else [.notFinite x]
  | _ => []

theorem Scalar.failsWith_toJson (v : Scalar) : FailsWith v.toJson v.faults := by
  cases v with
  | numeric x =>
    rw [toJson, faults]
    split
    · exact failsWith_ok _
    · exact failsWith_error _ []
  | null => exact failsWith_ok _
  | boolean b => exact failsWith_ok _
  | integer i => exact failsWith_ok _
  | text s => exact failsWith_ok _
  | timestamp i => exact failsWith_ok _

theorem Scalar.failsWith_allToJson (vs : List Scalar) :
    FailsWith (allToJson vs) (vs.flatMap faults) := by
  induction vs with
  | nil => exact failsWith_ok []
  | cons v rest ih =>
    have hfirst := v.failsWith_toJson.bind fun j _ => ih.bind_ok (f := (j :: ·))
    rw [List.flatMap_cons, allToJson]
    cases h : v.toJson with
    | error e =>
      rw [h] at hfirst
      exact hfirst
    | ok j =>
      rw [h] at hfirst
      cases hrest : allToJson rest with
      | error e =>
        rw [hrest] at hfirst
        exact hfirst
      | ok js =>
        rw [hrest] at hfirst
        exact hfirst

/-! ### Leaves -/

namespace Leaf

def values : Leaf → List Scalar
  | .equals _ value => [value]
  | .range _ (.single _ value) => [value]
  | .range _ (.between _ low _ high) => [low, high]
  | .oneOf _ values => values
  | .ids values => values
  | .like _ _ _ _ => []
  | .exists _ => []

def pathFaults (t : RecordType) (path : String) : List StoreError :=
  if (t.mapping.get? path).isSome then [] else [.compilation (.unknownPath path t.key)]

/-- What is wrong with the bounds of a range, or with a pattern for a property that is no text. -/
def formFaults (t : RecordType) : Leaf → List StoreError
  | .range path (.between lowOp _ highOp _) =>
    if lowOp ∈ [.gt, .ge] ∧ highOp ∈ [.lt, .le] then []
    else [.compilation (.invalidBetween lowOp.engineName highOp.engineName path)]
  | .like path _ _ _ =>
    match t.mapping.get? path with
    | some p => if p.kind.isText then [] else [.compilation (.likeOnNonText path p.kind.name)]
    | none => []
  | _ => []

/-- All that is wrong with a leaf: its path, then its form, then its values. -/
def faults (t : RecordType) (l : Leaf) : List StoreError :=
  l.path?.toList.flatMap (pathFaults t) ++ l.formFaults t ++ l.values.flatMap Scalar.faults

variable {t : RecordType} {path : String} {l : Leaf}

theorem faults_of_path (h : l.path? = some path) :
    l.faults t =
      pathFaults t path ++ (l.formFaults t ++ l.values.flatMap Scalar.faults) := by
  simp [faults, h]

theorem failsWith_resolve : FailsWith (t.resolve path) (pathFaults t path) := by
  unfold RecordType.resolve pathFaults Mapping.target?
  cases t.mapping.get? path with
  | none => exact failsWith_error _ []
  | some p => exact failsWith_ok _

theorem failsWith_leafAt {α : Type} {read : Except StoreError α} {xs : List StoreError}
    (h : FailsWith read xs) (clause : FieldTarget → α → LeafClause) :
    FailsWith (do .ok [← Filter.leafAt t path read clause]) (pathFaults t path ++ xs) :=
  (failsWith_resolve.bind fun _ _ => h.bind_ok).bind_ok

theorem isBetween_iff {lowOp highOp : RangeOp} :
    (lowOp.isLower ∧ ¬highOp.isLower) ↔ lowOp ∈ [.gt, .ge] ∧ highOp ∈ [.lt, .le] := by
  cases lowOp <;> cases highOp <;> decide

theorem failsWith_boundsOf (bound : RangeBound) :
    FailsWith (Filter.boundsOf path bound)
      ((Leaf.range path bound).formFaults t ++
        (Leaf.range path bound).values.flatMap Scalar.faults) := by
  cases bound with
  | single op value =>
    have hvalue := value.failsWith_toJson.bind_ok (f := fun j => [(op, j)])
    simpa [Filter.boundsOf, formFaults, values] using hvalue
  | between lowOp low highOp high =>
    rw [Filter.boundsOf, formFaults]
    by_cases hops : lowOp.isLower ∧ ¬highOp.isLower
    · have hvalues := low.failsWith_toJson.bind fun a _ =>
        high.failsWith_toJson.bind_ok (f := fun b => [(lowOp, a), (highOp, b)])
      rw [if_pos hops, if_pos (isBetween_iff.mp hops)]
      simpa [values] using hvalues
    · rw [if_neg hops, if_neg (mt isBetween_iff.mpr hops)]
      exact failsWith_error _ _

theorem failsWith_termLeaf (value : Scalar) :
    FailsWith (do .ok [← Filter.termLeaf t path value]) ((Leaf.equals path value).faults t) := by
  have hvalue : FailsWith value.toJson ([value].flatMap Scalar.faults) := by
    simpa using value.failsWith_toJson
  rw [faults_of_path rfl]
  exact failsWith_leafAt hvalue _

/-- The leaf of a pattern looks at its property before anything is read. -/
theorem failsWith_likeLeaves (text : String) (type : LikeType) (caseInsensitive : Bool) :
    FailsWith (Filter.likeLeaves t path text type caseInsensitive)
      ((Leaf.like path text type caseInsensitive).faults t) := by
  rw [faults_of_path rfl]
  refine failsWith_resolve.bind fun target htarget => ?_
  obtain ⟨p, hget, rfl⟩ := exists_property_of_resolve htarget
  simp only [formFaults, hget, values, List.flatMap_nil, List.append_nil]
  by_cases htext : p.kind.isText
  · rw [if_pos htext, if_pos htext]
    cases type with
    | raw => exact failsWith_ok _
    | startsWith => exact failsWith_ok _
    | endsWith => exact failsWith_ok _
    | contains => exact failsWith_ok _
    | equalTo =>
      cases caseInsensitive with
      | true => exact failsWith_ok _
      | false =>
        have hvalue : (Leaf.equals path (.text text)).faults t = [] := by
          simp [faults, path?, formFaults, values, pathFaults, hget, Scalar.faults]
        rw [← hvalue]
        exact failsWith_termLeaf (.text text)
  · rw [if_neg htext, if_neg htext]
    exact failsWith_error _ []

theorem failsWith_placed (l : Leaf) : FailsWith (l.placed t) (l.faults t) := by
  have hnothing : FailsWith (.ok () : Except StoreError Unit) [] := failsWith_ok ()
  cases l with
  | equals path value =>
    rw [placed]
    split
    next hnull =>
      obtain rfl : value = .null := by cases value <;> simp [Scalar.isNull] at hnull ⊢
      rw [faults_of_path rfl]
      exact failsWith_leafAt hnothing _
    next => exact failsWith_termLeaf value
  | range path bound =>
    rw [faults_of_path rfl]
    exact failsWith_leafAt (failsWith_boundsOf bound) _
  | oneOf path vs =>
    rw [faults_of_path rfl]
    exact failsWith_leafAt (Scalar.failsWith_allToJson vs) _
  | ids vs => exact (Scalar.failsWith_allToJson vs).bind_ok.bind_ok
  | like path text type caseInsensitive => exact failsWith_likeLeaves text type caseInsensitive
  | «exists» path =>
    rw [faults_of_path rfl]
    exact failsWith_leafAt hnothing _

theorem failsWith_placedAll (ls : List Leaf) :
    FailsWith (placedAll t ls) (ls.flatMap (faults t)) := by
  induction ls with
  | nil => exact failsWith_ok []
  | cons l rest ih =>
    rw [List.flatMap_cons, placedAll]
    exact l.failsWith_placed.bind fun own _ => ih.bind_ok

/-! ### Valid leaves -/

/-- Whether the form of a leaf suits its property: a range between two bounds has a lower and an
upper one, and a pattern is for a text. -/
def Fits (m : Mapping) : Leaf → Prop
  | .range _ (.between lowOp _ highOp _) => lowOp ∈ [.gt, .ge] ∧ highOp ∈ [.lt, .le]
  | .like path _ _ _ => ∀ p, m.get? path = some p → p.kind.isText
  | _ => True

structure Valid (m : Mapping) (l : Leaf) : Prop where
  mapped : ∀ path, l.path? = some path → m.get? path ≠ none
  fits : l.Fits m
  finite : ∀ x, .numeric x ∈ l.values → x.isFinite

theorem pathFaults_eq_nil_iff :
    l.path?.toList.flatMap (pathFaults t) = [] ↔
      ∀ path, l.path? = some path → t.mapping.get? path ≠ none := by
  cases l.path? with
  | none => simp
  | some path => cases h : t.mapping.get? path <;> simp [pathFaults, h]

theorem formFaults_eq_nil_iff : l.formFaults t = [] ↔ l.Fits t.mapping := by
  cases l with
  | range path bound =>
    cases bound with
    | single op value => simp [formFaults, Fits]
    | between lowOp low highOp high =>
      rw [formFaults, Fits]
      split
      next hops => exact iff_of_true rfl hops
      next hops => exact iff_of_false (List.cons_ne_nil _ _) hops
  | like path text type caseInsensitive =>
    rw [formFaults, Fits]
    cases t.mapping.get? path with
    | none => simp
    | some p => by_cases htext : p.kind.isText <;> simp [htext]
  | equals path value => simp [formFaults, Fits]
  | oneOf path vs => simp [formFaults, Fits]
  | ids vs => simp [formFaults, Fits]
  | «exists» path => simp [formFaults, Fits]

theorem valueFaults_eq_nil_iff (v : Scalar) :
    v.faults = [] ↔ ∀ x, v = .numeric x → x.isFinite := by
  cases v <;> simp [Scalar.faults]

theorem faults_eq_nil_iff : l.faults t = [] ↔ l.Valid t.mapping := by
  have hvalues : l.values.flatMap Scalar.faults = [] ↔ ∀ x, .numeric x ∈ l.values → x.isFinite := by
    rw [List.flatMap_eq_nil_iff]
    constructor
    · intro h x hx
      exact (valueFaults_eq_nil_iff _).mp (h _ hx) x rfl
    · intro h v hv
      refine (valueFaults_eq_nil_iff v).mpr ?_
      rintro x rfl
      exact h x hv
  rw [faults, List.append_eq_nil_iff, List.append_eq_nil_iff, pathFaults_eq_nil_iff,
    formFaults_eq_nil_iff, hvalues]
  constructor
  · rintro ⟨⟨hmapped, hfits⟩, hfinite⟩
    exact ⟨hmapped, hfits, hfinite⟩
  · intro h
    exact ⟨⟨h.mapped, h.fits⟩, h.finite⟩

end Leaf

/-! ### Filters -/

namespace Filter

variable {t : RecordType}

theorem failsWith_condition (f : Filter) :
    FailsWith (condition t f) (f.leaves.flatMap (Leaf.faults t)) := by
  rw [← failsWith_map_iff (f := Condition.leaves), leaves_condition]
  exact Leaf.failsWith_placedAll f.leaves

theorem failsWith_conditions (fs : List Filter) :
    FailsWith (conditions t fs) ((leavesOf fs).flatMap (Leaf.faults t)) := by
  rw [← failsWith_map_iff (f := Condition.leavesOf), leaves_conditions]
  exact Leaf.failsWith_placedAll (leavesOf fs)

/-- Compiling fails with the first fault of the request, once there is anything to compile. -/
theorem failsWith_compile {id : Option Scalar} {filter : Option Filter}
    (h : id ≠ none ∨ filter ≠ none) :
    FailsWith (compile t id filter) ((requestedLeaves id filter).flatMap (Leaf.faults t)) := by
  cases id with
  | some i =>
    have hid : FailsWith (idsLeaf [i]) ((Leaf.ids [i]).faults t) :=
      (Scalar.failsWith_allToJson [i]).bind_ok
    cases filter with
    | some f =>
      have hrest := failsWith_conditions (t := t) f.conjuncts
      rw [leavesOf_conjuncts] at hrest
      rw [compile_id_filter]
      exact hid.bind fun l _ => hrest.bind_ok
    | none =>
      rw [compile_id, failsWith_map_iff]
      simpa [requestedLeaves] using hid
  | none =>
    cases filter with
    | some f =>
      rw [compile_filter, failsWith_map_iff]
      exact failsWith_condition f
    | none => simp at h

end Filter

/-! ### Requests -/

/-- Whether a cause says that clauses were put together wrongly. -/
def CompilationError.isInternal : CompilationError → Bool
  | .scopesLeftOpen _ => true
  | .noClause => true
  | .severalClauses _ => true
  | .unmatchedClose => true
  | _ => false

/-- What is wrong with a leaf is never that clauses were put together wrongly. -/
theorem Leaf.not_isInternal_of_mem_faults {t : RecordType} {l : Leaf} {cause : CompilationError}
    (h : .compilation cause ∈ l.faults t) : ¬cause.isInternal := by
  simp only [faults, List.mem_append] at h
  rcases h with (hpath | hform) | hvalue
  · obtain ⟨path, -, hpath⟩ := List.mem_flatMap.mp hpath
    unfold pathFaults at hpath
    split at hpath
    · cases hpath
    · cases List.mem_singleton.mp hpath
      simp [CompilationError.isInternal]
  · unfold formFaults at hform
    split at hform
    · split at hform
      · cases hform
      · cases List.mem_singleton.mp hform
        simp [CompilationError.isInternal]
    · split at hform
      · split at hform
        · cases hform
        · cases List.mem_singleton.mp hform
          simp [CompilationError.isInternal]
      · cases hform
    · cases hform
  · obtain ⟨v, -, hvalue⟩ := List.mem_flatMap.mp hvalue
    cases v <;> simp [Scalar.faults] at hvalue

namespace Query

/-- All that is wrong with a request: with its id, and then with the leaves of its filter from left
to right. -/
def faults (q : Query) : List StoreError :=
  (Filter.requestedLeaves q.id q.filter).flatMap (Leaf.faults q.recordType)

theorem failsWith_clauseJson (q : Query) : FailsWith q.clauseJson q.faults := by
  rw [clauseJson, faults]
  cases hid : q.id with
  | some i => exact (Filter.failsWith_compile (by simp)).bind_ok
  | none =>
    cases hfilter : q.filter with
    | some f => exact (Filter.failsWith_compile (by simp)).bind_ok
    | none => exact failsWith_ok _

theorem failsWith_compile (q : Query) : FailsWith q.compile q.faults :=
  q.failsWith_clauseJson.bind_ok

theorem faults_eq_nil_iff (q : Query) :
    q.faults = [] ↔ (∀ x, q.id = some (.numeric x) → x.isFinite) ∧
      ∀ f ∈ q.filter, ∀ l ∈ f.leaves, l.Valid q.recordType.mapping := by
  have hid : ∀ i, (Leaf.ids [i]).faults q.recordType = i.faults := by
    intro i
    simp [Leaf.faults, Leaf.path?, Leaf.formFaults, Leaf.values]
  rw [faults, List.flatMap_eq_nil_iff, Filter.requestedLeaves, List.forall_mem_append]
  refine and_congr ?_ ?_
  · cases q.id with
    | none => simp
    | some i => simp [hid, Leaf.valueFaults_eq_nil_iff]
  · cases q.filter with
    | none => simp
    | some f => simp [Leaf.faults_eq_nil_iff]

/-- A request has no query document exactly if its id is a double that is not finite or a leaf of
its filter is invalid. It then fails with the first fault, and never because its clauses were put
together wrongly. -/
theorem compile_eq_error_iff (q : Query) :
    (∀ e, q.compile = .error e ↔ q.faults.head? = some e) ∧
    ((∃ e, q.compile = .error e) ↔
      (∃ x, q.id = some (.numeric x) ∧ ¬x.isFinite) ∨
        ∃ f ∈ q.filter, ∃ l ∈ f.leaves, ¬l.Valid q.recordType.mapping) ∧
    ∀ cause, q.compile = .error (.compilation cause) → ¬cause.isInternal := by
  have hfails : FailsWith q.compile q.faults := q.failsWith_compile
  refine ⟨hfails, ?_, ?_⟩
  · rw [hfails.exists_error_iff, Ne, q.faults_eq_nil_iff]
    simp only [not_and_or, not_forall, exists_prop]
  · intro cause hcause
    have hmem : .compilation cause ∈ q.faults := List.mem_of_head? ((hfails _).mp hcause)
    obtain ⟨l, -, hl⟩ := List.mem_flatMap.mp hmem
    exact Leaf.not_isInternal_of_mem_faults hl

end Query

end DocumentSearch
