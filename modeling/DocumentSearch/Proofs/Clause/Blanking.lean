import DocumentSearch.Proofs.Clause.Part
import DocumentSearch.Proofs.Json.Members

/-!
# Clauses without their values

What a caller compares with stands in the leaf clauses of a query document. `Json.blanked` takes it
out of the document, and `Clause.blanked` out of the clauses that the document is written from; the
two agree, so clauses that are equal without their values are written alike but for their values.
Which leaves make a run, and how a run is nested, does not depend on values, so parts may be blanked
before they are grouped or after.
-/

namespace DocumentSearch

/-! ### Members -/

namespace Members

variable {α β : Type}

/-- Each value gives way to what `f` makes of it, under its own name. -/
def mapValues (f : String → α → β) (members : List (String × α)) : List (String × β) :=
  members.map fun e => (e.1, f e.1 e.2)

theorem mapValues_insert (f : String → α → β) (name : String) (value : α) (members : Members α) :
    mapValues f (members.insert name value) =
      Members.insert name (f name value) (mapValues f members) := by
  induction members with
  | nil => rfl
  | cons e rest ih =>
    obtain ⟨k, v⟩ := e
    rw [insert]
    split
    next heq =>
      subst heq
      simp [mapValues, insert]
    next hne =>
      split
      next hlt => simp [mapValues, insert, hne, hlt]
      next hlt =>
        simp only [mapValues, List.map_cons, insert, hne, hlt, if_false] at ih ⊢
        rw [ih]

theorem ofList_concat (entries : List (String × α)) (e : String × α) :
    ofList (entries ++ [e]) = (ofList entries).insert e.1 e.2 :=
  List.foldl_append

/-- Of two entries with one name the later one counts, before the values give way and after. -/
theorem mapValues_ofList (f : String → α → β) (entries : List (String × α)) :
    mapValues f (ofList entries) = ofList (mapValues f entries) := by
  induction entries using List.reverseRecOn with
  | nil => rfl
  | append_singleton entries e ih =>
    rw [ofList_concat, mapValues_insert, ih, mapValues, mapValues, List.map_append]
    exact (ofList_concat (mapValues f entries) (e.1, f e.1 e.2)).symm

end Members

/-! ### Documents -/

namespace Json

/-- The leaf clauses with values in them. -/
def valueClauses : List String := ["ids", "term", "terms", "range", "match", "prefix", "wildcard"]

mutual

/-- A query, or a part of it, in which each scalar inside one of the `valueClauses` gives way to
null; `inside` says whether this part stands in one. -/
def blanked (inside : Bool) : Json → Json
  | .array items => .array (blankedAll inside items)
  | .object members => .object (blankedMembers inside members)
  | j => if inside then .null else j

def blankedAll (inside : Bool) : List Json → List Json
  | [] => []
  | j :: rest => blanked inside j :: blankedAll inside rest

def blankedMembers (inside : Bool) : List (String × Json) → List (String × Json)
  | [] => []
  | (name, j) :: rest =>
    (name, blanked (inside || name ∈ valueClauses) j) :: blankedMembers inside rest

end

theorem blankedAll_eq_map (inside : Bool) (items : List Json) :
    blankedAll inside items = items.map (blanked inside) := by
  induction items with
  | nil => rfl
  | cons j rest ih => rw [blankedAll, ih, List.map_cons]

theorem blankedMembers_eq_mapValues (inside : Bool) (members : List (String × Json)) :
    blankedMembers inside members =
      Members.mapValues (fun name => blanked (inside || name ∈ valueClauses)) members := by
  induction members with
  | nil => rfl
  | cons e rest ih =>
    rw [blankedMembers, ih]
    rfl

theorem blanked_ofMembers (inside : Bool) (entries : List (String × Json)) :
    blanked inside (ofMembers entries) =
      ofMembers (entries.map fun e => (e.1, blanked (inside || e.1 ∈ valueClauses) e.2)) := by
  rw [ofMembers, blanked, blankedMembers_eq_mapValues, Members.mapValues_ofList]
  rfl

theorem blanked_array (inside : Bool) (items : List Json) :
    blanked inside (.array items) = .array (items.map (blanked inside)) := by
  rw [blanked, blankedAll_eq_map]

mutual

/-- What has been blanked stays as it is. -/
theorem blanked_blanked (j : Json) : blanked true (blanked true j) = blanked true j := by
  cases j with
  | array items => rw [blanked, blanked, blankedAll_blankedAll items]
  | object members => rw [blanked, blanked, blankedMembers_blankedMembers members]
  | _ => rfl

theorem blankedAll_blankedAll (items : List Json) :
    blankedAll true (blankedAll true items) = blankedAll true items := by
  match items with
  | [] => rfl
  | j :: rest =>
    rw [blankedAll, blankedAll, blanked_blanked j, blankedAll_blankedAll rest]

theorem blankedMembers_blankedMembers (members : List (String × Json)) :
    blankedMembers true (blankedMembers true members) = blankedMembers true members := by
  match members with
  | [] => rfl
  | (name, j) :: rest =>
    rw [blankedMembers, blankedMembers, Bool.true_or, blanked_blanked j,
      blankedMembers_blankedMembers rest]

end

theorem blanked_onField (inside : Bool) (kind field : String) (value : Json) :
    (LeafClause.onField kind field value).blanked inside =
      LeafClause.onField kind field
        (value.blanked (inside || kind ∈ valueClauses || field ∈ valueClauses)) := by
  simp only [LeafClause.onField, blanked_ofMembers, List.map_cons, List.map_nil]

end Json

/-! ### Clauses -/

/-- A leaf clause without what it compares with. -/
def LeafClause.blanked : LeafClause → LeafClause
  | .term field value => .term field (value.blanked true)
  | .terms field values => .terms field (values.map (Json.blanked true))
  | .range field bounds => .range field (bounds.map fun b => (b.1, b.2.blanked true))
  | .exists field => .exists field
  | .fullText field _ => .fullText field ""
  | .wildcard field _ => .wildcard field ""
  | .startsWith field _ => .startsWith field ""
  | .ids values => .ids (values.map (Json.blanked true))

/-- What a leaf clause compares with stands where its document is blanked. -/
theorem LeafClause.toJson_blanked (l : LeafClause) :
    l.blanked.toJson.blanked false = l.toJson.blanked false := by
  have hkind : ∀ {kind : String} (field : String) {v w : Json}, kind ∈ Json.valueClauses →
      v.blanked true = w.blanked true →
      (onField kind field v).blanked false = (onField kind field w).blanked false := by
    intro kind field v w hkind hvalue
    simp only [Json.blanked_onField, hkind, decide_true, Bool.false_or, Bool.true_or, hvalue]
  have hitems (js : List Json) : (Json.array (js.map (Json.blanked true))).blanked true =
      (Json.array js).blanked true := by
    simp [Json.blanked_array, Json.blanked_blanked]
  cases l with
  | term field value =>
    apply hkind field (by decide)
    exact Json.blanked_blanked value
  | terms field values =>
    apply hkind field (by decide)
    exact hitems values
  | range field bounds =>
    apply hkind field (by decide)
    simp [Json.blanked_ofMembers, Json.blanked_blanked, Function.comp_def]
  | «exists» field => rfl
  | fullText field text => exact hkind field (by decide) rfl
  | wildcard field pattern => exact hkind field (by decide) rfl
  | startsWith field text => exact hkind field (by decide) rfl
  | ids values =>
    apply hkind "values" (by decide)
    exact hitems values

namespace Clause

mutual

/-- A clause without what its leaf clauses compare with. -/
def blanked : Clause → Clause
  | .leaf l => .leaf l.blanked
  | .bool occur clauses => .bool occur (blankedAll clauses)
  | .nested path filter => .nested path filter.blanked

def blankedAll : List Clause → List Clause
  | [] => []
  | c :: rest => c.blanked :: blankedAll rest

end

theorem blankedAll_eq_map (cs : List Clause) : blankedAll cs = cs.map blanked := by
  induction cs with
  | nil => rfl
  | cons c rest ih => rw [blankedAll, ih, List.map_cons]

@[simp] theorem blanked_leaf (l : LeafClause) : (leaf l).blanked = .leaf l.blanked := by
  rw [blanked]

@[simp] theorem blanked_bool (occur : Occur) (cs : List Clause) :
    (bool occur cs).blanked = .bool occur (cs.map blanked) := by
  rw [blanked, blankedAll_eq_map]

@[simp] theorem blanked_nested (path : String) (filter : Clause) :
    (nested path filter).blanked = .nested path filter.blanked := by
  rw [blanked]

theorem occurName_not_mem_valueClauses (occur : Occur) : occur.name ∉ Json.valueClauses := by
  cases occur <;> decide

mutual

/-- A clause is written alike with its values and without, but for the values. -/
theorem toJson_blanked (c : Clause) :
    c.blanked.toJson.blanked false = c.toJson.blanked false := by
  cases c with
  | leaf l =>
    rw [blanked_leaf, toJson, toJson]
    exact l.toJson_blanked
  | bool occur cs =>
    have hbool : "bool" ∉ Json.valueClauses := by decide
    rw [blanked, toJson, toJson]
    simp only [Json.blanked_ofMembers, Json.blanked, List.map_cons, List.map_nil, hbool,
      occurName_not_mem_valueClauses, decide_false, Bool.or_self, jsonsOf_blankedAll cs]
  | nested path filter =>
    have hnested : "nested" ∉ Json.valueClauses := by decide
    have hpath : "path" ∉ Json.valueClauses := by decide
    have hfilter : "filter" ∉ Json.valueClauses := by decide
    rw [blanked, toJson, toJson]
    simp only [Json.blanked_ofMembers, List.map_cons, List.map_nil, hnested, hpath, hfilter,
      decide_false, Bool.or_self, toJson_blanked filter]

theorem jsonsOf_blankedAll (cs : List Clause) :
    Json.blankedAll false (jsonsOf (blankedAll cs)) = Json.blankedAll false (jsonsOf cs) := by
  match cs with
  | [] => rfl
  | c :: rest =>
    rw [blankedAll, jsonsOf, jsonsOf, Json.blankedAll, Json.blankedAll, toJson_blanked c,
      jsonsOf_blankedAll rest]

end

theorem toJson_blanked_congr {c d : Clause} (h : c.blanked = d.blanked) :
    c.toJson.blanked false = d.toJson.blanked false := by
  rw [← c.toJson_blanked, h, d.toJson_blanked]

end Clause

/-! ### Parts of a scope -/

def PlacedLeaf.blanked (l : PlacedLeaf) : PlacedLeaf := ⟨l.manyRoot, l.clause.blanked⟩

namespace Part

def blanked : Part → Part
  | .bare l => .bare l.blanked
  | .bool occur clauses => .bool occur (clauses.map Clause.blanked)

@[simp] theorem manyRoot_blanked (p : Part) : p.blanked.manyRoot = p.manyRoot := by
  cases p <;> rfl

@[simp] theorem clause_blanked (p : Part) : p.blanked.clause = p.clause.blanked := by
  cases p <;> simp [blanked, clause, PlacedLeaf.blanked]

theorem filterOf_blanked (occur : Occur) (cs : List Clause) :
    filterOf occur (cs.map Clause.blanked) = (filterOf occur cs).blanked := by
  match cs with
  | [] => simp [filterOf]
  | [c] => rfl
  | c :: c' :: rest => simp [filterOf]

theorem runClauses_blanked (occur : Occur) (run : List Part) :
    runClauses occur (run.map blanked) = (runClauses occur run).map Clause.blanked := by
  have hclauses : (run.map blanked).map clause = (run.map clause).map Clause.blanked := by
    simp
  have hroot : (run.map blanked).head?.bind manyRoot = run.head?.bind manyRoot := by
    cases run <;> simp
  unfold runClauses
  rw [hclauses, hroot, filterOf_blanked]
  split <;> simp

/-- Parts are grouped by their many roots, whatever they compare with. -/
theorem grouped_blanked (occur : Occur) (parts : List Part) :
    grouped occur (parts.map blanked) = (grouped occur parts).map Clause.blanked := by
  have hroot : manyRoot ∘ blanked = manyRoot := funext manyRoot_blanked
  rw [grouped, grouped, runsOn_map, hroot, List.flatMap_map, List.map_flatMap]
  exact List.flatMap_congr fun run _ => runClauses_blanked occur run

theorem alone_blanked (p : Part) : p.blanked.alone = p.alone.blanked := by
  rw [alone, alone, manyRoot_blanked, clause_blanked]
  split <;> simp

end Part

end DocumentSearch
