import DocumentSearch.Proofs.Filter.Condition

/-!
# The leaves of a filter

A filter asks something of single properties, or of the id; its junctions and negations only say how
the answers are put together. `Filter.leaves` lists what it asks, from left to right, and
`Leaf.placed` gives the clauses of one leaf from the mapping alone. Finding the condition of a
filter is placing its leaves one after the other: none is left out, none comes twice, and the first
that cannot be placed decides the error.
-/

namespace DocumentSearch

/-- What a filter asks of one property, or of the id. -/
inductive Leaf where
  | equals (path : String) (value : Scalar)
  | range (path : String) (bound : RangeBound)
  | oneOf (path : String) (values : List Scalar)
  | ids (values : List Scalar)
  | like (path text : String) (type : LikeType) (caseInsensitive : Bool)
  | exists (path : String)

namespace Leaf

def path? : Leaf → Option String
  | .equals path _ => some path
  | .range path _ => some path
  | .oneOf path _ => some path
  | .ids _ => none
  | .like path _ _ _ => some path
  | .exists path => some path

/-- The outermost list on the way to the leaf's property; the id stands in no list. -/
def manyRoot (m : Mapping) (l : Leaf) : Option String := l.path?.bind m.manyRoot

/-- How many clauses a leaf makes: a text compared without regard to case makes one for each of its
words, or a single one when it has none. -/
def clauseCount : Leaf → Nat
  | .like _ text .equalTo true => max 1 (Text.words (Text.lowercase text)).length
  | _ => 1

/-- The clauses of a leaf. -/
def placed (t : RecordType) : Leaf → Except StoreError (List PlacedLeaf)
  | .equals path value =>
    if value.isNull then do .ok [← Filter.existsLeaf t path]
    else do .ok [← Filter.termLeaf t path value]
  | .range path bound => do .ok [← Filter.rangeLeaf t path bound]
  | .oneOf path values => do .ok [← Filter.termsLeaf t path values]
  | .ids values => do .ok [← Filter.idsLeaf values]
  | .like path text type caseInsensitive => Filter.likeLeaves t path text type caseInsensitive
  | .exists path => do .ok [← Filter.existsLeaf t path]

def placedAll (t : RecordType) : List Leaf → Except StoreError (List PlacedLeaf)
  | [] => .ok []
  | l :: rest => do
    let own ← l.placed t
    let others ← placedAll t rest
    .ok (own ++ others)

theorem placedAll_singleton (t : RecordType) (l : Leaf) : placedAll t [l] = l.placed t := by
  rw [placedAll]
  cases l.placed t with
  | error e => rfl
  | ok own => exact congrArg Except.ok (List.append_nil own)

theorem placedAll_append (t : RecordType) (left right : List Leaf) :
    placedAll t (left ++ right) = (do
      let own ← placedAll t left
      let others ← placedAll t right
      .ok (own ++ others)) := by
  induction left with
  | nil =>
    cases h : placedAll t right <;> simp [placedAll, h, bind, Except.bind]
  | cons l rest ih =>
    rw [List.cons_append, placedAll, placedAll, ih]
    cases l.placed t with
    | error e => rfl
    | ok own =>
      cases placedAll t rest with
      | error e => rfl
      | ok others =>
        cases placedAll t right with
        | error e => rfl
        | ok last => exact congrArg Except.ok (List.append_assoc own others last).symm

theorem forall₂_of_placedAll {t : RecordType} {ls : List Leaf} {all : List PlacedLeaf}
    (h : placedAll t ls = .ok all) :
    ∃ own, List.Forall₂ (fun l placed => l.placed t = .ok placed) ls own ∧ all = own.flatten := by
  induction ls generalizing all with
  | nil =>
    obtain rfl := Except.ok.inj h
    exact ⟨[], .nil, rfl⟩
  | cons l rest ih =>
    rw [placedAll] at h
    obtain ⟨first, hfirst, h⟩ := ok_of_bind h
    obtain ⟨others, hothers, rfl⟩ := ok_of_bind_ok h
    obtain ⟨own, hown, rfl⟩ := ih hothers
    exact ⟨first :: own, .cons hfirst hown, rfl⟩

/-! ### Where the clauses of a leaf stand -/

variable {t : RecordType} {l : Leaf} {own : List PlacedLeaf} {path : String}

theorem exists_property_of_resolve {target : FieldTarget} (h : t.resolve path = .ok target) :
    ∃ p, t.mapping.get? path = some p ∧
      target = ⟨p.raw.getD path, t.mapping.manyRoot path, p.kind⟩ := by
  unfold RecordType.resolve at h
  cases hget : t.mapping.get? path with
  | none => simp [Mapping.target?, hget] at h
  | some p =>
    simp only [Mapping.target?, hget, Option.map_some, Except.ok.injEq] at h
    exact ⟨p, rfl, h.symm⟩

theorem manyRoot_of_resolve {target : FieldTarget} (h : t.resolve path = .ok target) :
    target.manyRoot = t.mapping.manyRoot path := by
  obtain ⟨p, -, rfl⟩ := exists_property_of_resolve h
  rfl

theorem manyRoot_of_leafAt {α : Type} {read : Except StoreError α}
    {clause : FieldTarget → α → LeafClause} {p : PlacedLeaf}
    (h : Filter.leafAt t path read clause = .ok p) : p.manyRoot = t.mapping.manyRoot path := by
  obtain ⟨target, htarget, h⟩ := ok_of_bind h
  obtain ⟨a, -, rfl⟩ := ok_of_bind_ok h
  exact manyRoot_of_resolve htarget

theorem length_wordsOf (lower : String) :
    (Filter.wordsOf lower).length = max 1 (Text.words lower).length := by
  unfold Filter.wordsOf
  split
  next h => simp [h]
  next hne =>
    have hpos : 0 < (Text.words lower).length := List.length_pos_iff.mpr hne
    omega

/-- The clauses of a pattern: all of them stand where its property does. -/
theorem likeLeaves_spec {text : String} {type : LikeType} {caseInsensitive : Bool}
    (h : Filter.likeLeaves t path text type caseInsensitive = .ok own) :
    own.length = (Leaf.like path text type caseInsensitive).clauseCount ∧
      ∀ p ∈ own, p.manyRoot = t.mapping.manyRoot path := by
  obtain ⟨target, htarget, h⟩ := ok_of_bind h
  rw [← manyRoot_of_resolve htarget]
  by_cases htext : target.kind.isText
  · rw [if_pos htext] at h
    have hone : ∀ l, [⟨target.manyRoot, l⟩] = own →
        own.length = 1 ∧ ∀ p ∈ own, p.manyRoot = target.manyRoot := by
      rintro l rfl
      exact ⟨rfl, List.forall_mem_singleton.mpr rfl⟩
    cases type with
    | raw => exact hone _ (Except.ok.inj h)
    | startsWith => exact hone _ (Except.ok.inj h)
    | endsWith => exact hone _ (Except.ok.inj h)
    | contains => exact hone _ (Except.ok.inj h)
    | equalTo =>
      cases caseInsensitive with
      | true =>
        obtain rfl := Except.ok.inj h
        refine ⟨?_, by simp⟩
        rw [List.length_map, length_wordsOf]
        rfl
      | false =>
        obtain ⟨p, hp, rfl⟩ := ok_of_bind_ok h
        refine ⟨rfl, List.forall_mem_singleton.mpr ?_⟩
        rw [manyRoot_of_leafAt hp, manyRoot_of_resolve htarget]
  · rw [if_neg htext] at h
    cases h

/-- A leaf makes as many clauses as it should, and all of them stand under the outermost list on the
way to its property. -/
theorem placed_spec (h : l.placed t = .ok own) :
    own.length = l.clauseCount ∧ ∀ p ∈ own, p.manyRoot = l.manyRoot t.mapping := by
  have hone : ∀ {path : String} {p : PlacedLeaf}, p.manyRoot = t.mapping.manyRoot path →
      [p].length = 1 ∧ ∀ p' ∈ [p], p'.manyRoot = t.mapping.manyRoot path := by
    intro path p hp
    exact ⟨rfl, List.forall_mem_singleton.mpr hp⟩
  cases l with
  | equals path value =>
    rw [placed] at h
    split at h
    all_goals
      obtain ⟨p, hp, rfl⟩ := ok_of_bind_ok h
      exact hone (manyRoot_of_leafAt hp)
  | range path bound =>
    obtain ⟨p, hp, rfl⟩ := ok_of_bind_ok h
    exact hone (manyRoot_of_leafAt hp)
  | oneOf path values =>
    obtain ⟨p, hp, rfl⟩ := ok_of_bind_ok h
    exact hone (manyRoot_of_leafAt hp)
  | ids values =>
    obtain ⟨p, hp, rfl⟩ := ok_of_bind_ok h
    obtain ⟨js, -, rfl⟩ := ok_of_bind_ok hp
    exact ⟨rfl, List.forall_mem_singleton.mpr rfl⟩
  | like path text type caseInsensitive => exact likeLeaves_spec h
  | «exists» path =>
    obtain ⟨p, hp, rfl⟩ := ok_of_bind_ok h
    exact hone (manyRoot_of_leafAt hp)

theorem manyRoot_of_placedAll {ls : List Leaf} {all : List PlacedLeaf}
    (h : placedAll t ls = .ok all) {p : PlacedLeaf} (hp : p ∈ all) :
    ∃ l ∈ ls, p.manyRoot = l.manyRoot t.mapping := by
  induction ls generalizing all with
  | nil =>
    obtain rfl := Except.ok.inj h
    simp at hp
  | cons l rest ih =>
    rw [placedAll] at h
    obtain ⟨first, hfirst, h⟩ := ok_of_bind h
    obtain ⟨others, hothers, rfl⟩ := ok_of_bind_ok h
    rcases List.mem_append.mp hp with hp | hp
    · exact ⟨l, List.mem_cons_self, (placed_spec hfirst).2 p hp⟩
    · obtain ⟨l', hl', hroot⟩ := ih hothers hp
      exact ⟨l', List.mem_cons_of_mem l hl', hroot⟩

end Leaf

/-! ### Conditions and their leaves -/

namespace Condition

mutual

/-- The leaves of a condition, from left to right. -/
def leaves : Condition → List PlacedLeaf
  | .leaf l => [l]
  | .all cs => leavesOf cs
  | .any cs => leavesOf cs
  | .not c => c.leaves

def leavesOf : List Condition → List PlacedLeaf
  | [] => []
  | c :: rest => c.leaves ++ leavesOf rest

end

theorem leaves_joined {join : List Condition → Condition}
    (h : ∀ cs, (join cs).leaves = leavesOf cs) (cs : List Condition) :
    (joined join cs).leaves = leavesOf cs := by
  match cs with
  | [] => exact h []
  | [c] => simp [joined, leavesOf]
  | c :: c' :: rest => exact h (c :: c' :: rest)

theorem leaves_all (cs : List Condition) : (all cs).leaves = leavesOf cs := by
  rw [leaves]

theorem leaves_any (cs : List Condition) : (any cs).leaves = leavesOf cs := by
  rw [leaves]

theorem leaves_negatedWhen (negated : Bool) (c : Condition) :
    (c.negatedWhen negated).leaves = c.leaves := by
  cases negated <;> simp [negatedWhen, leaves]

theorem leavesOf_map_leaf (ls : List PlacedLeaf) : leavesOf (ls.map .leaf) = ls := by
  induction ls with
  | nil => rfl
  | cons l rest ih => rw [List.map_cons, leavesOf, leaves, ih, List.singleton_append]

end Condition

/-! ### Filters and their leaves -/

namespace Filter

mutual

def leaves : Filter → List Leaf
  | .and children => leavesOf children
  | .or children => leavesOf children
  | .not child => child.leaves
  | .equals path value => [.equals path value]
  | .notEquals path value => [.equals path value]
  | .allEquals pairs => pairs.map fun p => .equals p.1 p.2
  | .range path bound => [.range path bound]
  | .oneOf path values _ => [.oneOf path values]
  | .ids values => [.ids values]
  | .like path text type caseInsensitive => [.like path text type caseInsensitive]
  | .exists path _ => [.exists path]

def leavesOf : List Filter → List Leaf
  | [] => []
  | f :: rest => f.leaves ++ leavesOf rest

end

/-- The leaves of a request for an id and a filter: the id comes first. -/
def requestedLeaves (id : Option Scalar) (filter : Option Filter) : List Leaf :=
  (id.map fun i => .ids [i]).toList ++ (filter.map leaves).getD []

theorem leavesOf_conjuncts (f : Filter) : leavesOf f.conjuncts = f.leaves := by
  cases f <;> simp [conjuncts, leavesOf, leaves]

section Conditions

variable (t : RecordType)

theorem leaves_equalsCondition (path : String) (value : Scalar) :
    (equalsCondition t path value).map Condition.leaves = (Leaf.equals path value).placed t := by
  rw [equalsCondition, Leaf.placed]
  split
  · cases existsLeaf t path <;> rfl
  · cases termLeaf t path value <;> rfl

theorem leaves_allEquals (pairs : List (String × Scalar)) :
    (pairs.mapM fun p => equalsCondition t p.1 p.2).map Condition.leavesOf =
      Leaf.placedAll t (pairs.map fun p => .equals p.1 p.2) := by
  induction pairs with
  | nil => rfl
  | cons p rest ih =>
    rw [List.mapM_cons, List.map_cons, Leaf.placedAll, ← leaves_equalsCondition, ← ih]
    cases equalsCondition t p.1 p.2 with
    | error e => rfl
    | ok c => cases rest.mapM fun p => equalsCondition t p.1 p.2 <;> rfl

theorem leaves_negatedLeaf (x : Except StoreError PlacedLeaf) (negated : Bool) :
    (do .ok (Condition.negatedWhen negated (.leaf (← x)))).map Condition.leaves =
      (do .ok [← x]) := by
  cases x with
  | error e => rfl
  | ok l => exact congrArg Except.ok (Condition.leaves_negatedWhen negated (.leaf l))

theorem leaves_join {join : List Condition → Condition}
    (h : ∀ cs, (join cs).leaves = Condition.leavesOf cs) {x : Except StoreError (List Condition)} :
    (do .ok (join (← x))).map Condition.leaves = x.map Condition.leavesOf := by
  cases x with
  | error e => rfl
  | ok cs => exact congrArg Except.ok (h cs)

mutual

/-- Finding the condition of a filter is placing its leaves: it has their clauses, in order, and
where a leaf cannot be placed it fails alike. -/
theorem leaves_condition (f : Filter) :
    (condition t f).map Condition.leaves = Leaf.placedAll t f.leaves := by
  cases f with
  | and children =>
    rw [condition, leaves, leaves_join (Condition.leaves_joined Condition.leaves_all)]
    exact leaves_conditions children
  | or children =>
    rw [condition, leaves, leaves_join (Condition.leaves_joined Condition.leaves_any)]
    exact leaves_conditions children
  | not child =>
    rw [condition, leaves, ← leaves_condition child]
    cases condition t child <;> simp [bind, Except.bind, Except.map, Condition.leaves]
  | equals path value =>
    rw [condition, leaves, Leaf.placedAll_singleton]
    exact leaves_equalsCondition t path value
  | notEquals path value =>
    rw [condition, leaves, Leaf.placedAll_singleton, ← leaves_equalsCondition]
    cases equalsCondition t path value <;> simp [bind, Except.bind, Except.map, Condition.leaves]
  | allEquals pairs =>
    rw [condition, leaves, leaves_join Condition.leaves_all]
    exact leaves_allEquals t pairs
  | range path bound =>
    rw [condition, leaves, Leaf.placedAll_singleton]
    exact leaves_negatedLeaf (rangeLeaf t path bound) false
  | oneOf path values negated =>
    rw [condition, leaves, Leaf.placedAll_singleton]
    exact leaves_negatedLeaf (termsLeaf t path values) negated
  | ids values =>
    rw [condition, leaves, Leaf.placedAll_singleton]
    exact leaves_negatedLeaf (idsLeaf values) false
  | like path text type caseInsensitive =>
    rw [condition, leaves, Leaf.placedAll_singleton, Leaf.placed]
    cases likeLeaves t path text type caseInsensitive with
    | error e => rfl
    | ok ls =>
      have hjoined := Condition.leaves_joined Condition.leaves_all (ls.map .leaf)
      exact congrArg Except.ok (hjoined.trans (Condition.leavesOf_map_leaf ls))
  | «exists» path mustExist =>
    rw [condition, leaves, Leaf.placedAll_singleton]
    exact leaves_negatedLeaf (existsLeaf t path) (!mustExist)

theorem leaves_conditions (fs : List Filter) :
    (conditions t fs).map Condition.leavesOf = Leaf.placedAll t (leavesOf fs) := by
  match fs with
  | [] => rfl
  | f :: rest =>
    rw [conditions, leavesOf, Leaf.placedAll_append, ← leaves_condition f,
      ← leaves_conditions rest]
    cases condition t f with
    | error e => rfl
    | ok c => cases conditions t rest <;> rfl

end

end Conditions

end Filter

end DocumentSearch
