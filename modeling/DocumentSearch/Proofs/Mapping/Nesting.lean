import DocumentSearch.Proofs.Filter.Conservation
import DocumentSearch.Proofs.Filter.Faults
import DocumentSearch.Proofs.Mapping.ExactField
import Mathlib.Data.List.Find

/-!
# Nested clauses and nested properties

A leaf on a property inside a list stands in a `nested` clause, and the engine accepts such a clause
only for a path that its index has as `nested`. The two sides are told by different means: filters
look for a list among the ancestors of a path, by name, and the index is made as a tree, segment by
segment. They agree on every path of every mapping: the outermost list on the way to a property is
the first `nested` node that a walk through the index meets.
-/

namespace DocumentSearch

/-! ### Walking to the first nested node -/

namespace Json

/-- Whether an index keeps what stands at a node as documents of its own. -/
def isNested (node : Json) : Bool :=
  match node.get? "type" with
  | some (.string type) => type = "nested"
  | _ => false

/-- The segments of the first nested node on the way through the properties of a node. -/
def nestedWithin? : List String → Json → Option (List String)
  | [], _ => none
  | s :: rest, node =>
    match (node.get? "properties").bind (·.get? s) with
    | none => none
    | some child => if child.isNested then some [s] else (nestedWithin? rest child).map (s :: ·)

end Json

/-- The path of the first nested node that a walk through the index body meets on the way to
`path`. -/
def Mapping.nestedOn? (m : Mapping) (path : String) : Option String :=
  (((m.indexBody.get? "mappings").bind (·.get? m.docType)).bind
    (Json.nestedWithin? (Path.segments path))).map Path.join

namespace MappingNode

/-- Whether a list is declared at the end of `segments`. -/
def isListAt (segments : List String) (n : MappingNode) : Bool := (ownAt segments n).1 = some .list

theorem isNested_toJson (n : MappingNode) : n.toJson.isNested = n.isListAt [] := by
  have hgetD : n.own.1.getD .object = .list ↔ n.own.1 = some .list := by
    cases n.own.1 <;> simp
  rw [isListAt, ownAt_nil]
  by_cases hbranch : n.isBranch
  · by_cases hlist : n.own.1 = some .list <;>
      simp [toJson_of_isBranch hbranch, Json.isNested, Json.get?_ofMembers_cons,
        Json.get?_ofMembers_nil, hgetD, hlist]
  · have hcontainer : (n.own.1.getD .object).isContainer = false := by
      simpa using (not_or.mp hbranch).1
    have htype : (n.own.1.getD .object).engineType ≠ "nested" := by
      revert hcontainer
      generalize n.own.1.getD .object = kind
      cases kind <;> decide
    have hlist : n.own.1 ≠ some .list := by
      rw [Ne, ← hgetD]
      intro heq
      rw [heq] at hcontainer
      cases hcontainer
    rw [toJson_of_not_isBranch hbranch]
    cases n.own.2 <;>
      simp [leafJson, Json.isNested, Json.get?_ofMembers_cons, Json.get?_ofMembers_nil, htype,
        hlist]

theorem isListAt_cons (s : String) (rest : List String) (n : MappingNode) :
    n.isListAt (s :: rest) = ((Members.find? n.children s).getD blank).isListAt rest := by
  rw [isListAt, ownAt_cons]
  rfl

/-- A walk meets the first list that is declared on the way. -/
theorem nestedWithin?_eq (s : String) (rest : List String) {n : MappingNode} {body : Json}
    (hbody : ∀ s, (body.get? "properties").bind (·.get? s) =
      (Members.find? n.children s).map toJson) :
    Json.nestedWithin? (s :: rest) body =
      (rest.inits.find? fun parts => n.isListAt (s :: parts)).map (s :: ·) := by
  induction rest generalizing s n body with
  | nil =>
    rw [Json.nestedWithin?, hbody, List.inits, List.find?_singleton, isListAt_cons]
    cases Members.find? n.children s with
    | none => rfl
    | some child =>
      simp only [Option.map_some, Option.getD_some, isNested_toJson]
      by_cases hlist : child.isListAt [] <;> simp [hlist, Json.nestedWithin?]
  | cons next rest ih =>
    rw [Json.nestedWithin?, hbody, List.inits_cons, List.find?_cons, List.find?_map, isListAt_cons]
    cases hfound : Members.find? n.children s with
    | none =>
      have hnone : rest.inits.find? (fun parts => n.isListAt (s :: next :: parts)) = none := by
        rw [List.find?_eq_none]
        intro parts _
        rw [isListAt_cons, hfound, Option.getD_none, isListAt, ownAt_blank]
        decide
      simp only [Function.comp_def, hnone]
      rfl
    | some child =>
      have hbelow : ∀ parts, n.isListAt (s :: parts) = child.isListAt parts := by
        intro parts
        rw [isListAt_cons, hfound, Option.getD_some]
      simp only [Option.map_some, Option.getD_some, isNested_toJson, Function.comp_def, hbelow,
        ih next fun s => property_toJson child s]
      by_cases hlist : child.isListAt [] <;> simp [hlist]

end MappingNode

namespace Mapping

theorem Built.isList_eq {m : Mapping} (h : m.Built) (path : String) :
    m.isList path = (MappingNode.ofProperties m.properties).isListAt (Path.segments path) := by
  have hreverse : (m.properties.reverse.map Property.name).Nodup := by
    rw [List.map_reverse, List.nodup_reverse]
    exact h.nodup
  have hsame : m.properties.reverse.find? (fun p => p.name = path) = m.get? path := by
    cases hget : m.get? path with
    | none => simpa [get?] using hget
    | some p =>
      have hmem : p ∈ m.properties := List.mem_of_find?_eq_some hget
      obtain rfl : p.name = path := by simpa using List.find?_some hget
      exact find?_of_nodup hreverse (List.mem_reverse.mpr hmem)
  rw [isList, MappingNode.isListAt, MappingNode.ownAt_ofProperties, hsame]
  cases m.get? path <;> simp

/-- The outermost list on the way to a path is the first nested node of the index. -/
theorem Built.manyRoot_eq {m : Mapping} (h : m.Built) (path : String) :
    m.manyRoot path = m.nestedOn? path := by
  obtain ⟨s, rest, hsegments⟩ := List.exists_cons_of_ne_nil (Path.segments_ne_nil path)
  have hwalk : m.nestedOn? path = ((rest.inits.find? fun parts =>
      (MappingNode.ofProperties m.properties).isListAt (s :: parts)).map (s :: ·)).map
        Path.join := by
    rw [nestedOn?, hsegments, indexBody]
    simp only [Json.get?_ofMembers_cons, Json.get?_ofMembers_nil, Option.none_or, if_true,
      Option.bind_some]
    rw [MappingNode.nestedWithin?_eq s rest (n := MappingNode.ofProperties m.properties)]
    intro s
    simp only [Json.get?_ofMembers_cons, Json.get?_ofMembers_nil, Option.none_or, if_true,
      Option.bind_some]
    rw [Json.get?, MappingNode.find?_childrenJson]
  rw [hwalk, manyRoot, Path.ancestors_eq hsegments, List.find?_map, Option.map_map]
  congr 1
  refine List.find?_congr fun parts hparts => ?_
  have hprefix : parts <+: rest := (List.mem_inits parts rest).mp hparts
  have hparts : ∀ x ∈ s :: parts, x ∈ Path.segments path := by
    rw [hsegments]
    exact fun x hx => List.cons_subset_cons s hprefix.subset hx
  have hjoin := Path.segments_join (List.cons_ne_nil s parts) hparts
  rw [Function.comp, h.isList_eq, hjoin]

end Mapping

/-! ### Leaves in filters -/

namespace Filter

/-- A filter that asks one thing of the property at `path`, with one clause, and nothing else. -/
inductive PlainLeaf (path : String) : Filter → Prop where
  | equals (value : Scalar) (h : value.isNull = false) : PlainLeaf path (.equals path value)
  | range (bound : RangeBound) : PlainLeaf path (.range path bound)
  | oneOf (values : List Scalar) : PlainLeaf path (.oneOf path values false)
  | like (text : String) (type : LikeType) (caseInsensitive : Bool)
    (h : (Leaf.like path text type caseInsensitive).clauseCount = 1) :
    PlainLeaf path (.like path text type caseInsensitive)
  | exists : PlainLeaf path (.exists path true)

variable {t : RecordType} {path : String} {f : Filter}

theorem PlainLeaf.exists_leaf (h : PlainLeaf path f) {c : Condition} (hc : condition t f = .ok c) :
    ∃ p, c = .leaf p ∧ p.manyRoot = t.mapping.manyRoot path := by
  cases h with
  | equals value hvalue =>
    rw [condition, equalsCondition, hvalue] at hc
    obtain ⟨p, hp, rfl⟩ := ok_of_bind_ok hc
    exact ⟨p, rfl, Leaf.manyRoot_of_leafAt hp⟩
  | range bound =>
    obtain ⟨p, hp, rfl⟩ := ok_of_bind_ok hc
    exact ⟨p, rfl, Leaf.manyRoot_of_leafAt hp⟩
  | oneOf values =>
    obtain ⟨p, hp, rfl⟩ := ok_of_bind_ok hc
    exact ⟨p, rfl, Leaf.manyRoot_of_leafAt hp⟩
  | like text type caseInsensitive hone =>
    obtain ⟨own, hown, rfl⟩ := ok_of_bind_ok hc
    obtain ⟨hlength, hroot⟩ := Leaf.likeLeaves_spec hown
    obtain ⟨p, rfl⟩ := List.length_eq_one_iff.mp (hlength.trans hone)
    exact ⟨p, rfl, hroot p (List.mem_singleton_self p)⟩
  | «exists» =>
    obtain ⟨p, hp, rfl⟩ := ok_of_bind_ok hc
    exact ⟨p, rfl, Leaf.manyRoot_of_leafAt hp⟩

/-- A leaf clause in the `nested` clause of `root`, if there is one. -/
def nestedIn (root : Option String) (l : LeafClause) : Clause :=
  match root with
  | some path => .nested path (.leaf l)
  | none => .leaf l

/-- A leaf stands in a `nested` clause if and only if a walk through the index to its property meets
a nested node, and the path of the clause is then that of the first such node. This holds of a leaf
that is the whole filter, and of the leaves of any request. -/
theorem nested_as_indexed (hm : t.mapping.Built) :
    (∀ path f, PlainLeaf path f → (∀ l ∈ f.leaves, l.Valid t.mapping) →
      ∃ l, compile t none (some f) = .ok (nestedIn (t.mapping.nestedOn? path) l)) ∧
    ∀ id filter c, compile t id filter = .ok c → c.WellScoped ∧
      ∃ own : List (List (List String × LeafClause)),
        List.Forall₂ (fun l clauses => clauses.length = l.clauseCount ∧
          ∀ x ∈ clauses, x.1 = (l.path?.bind t.mapping.nestedOn?).toList)
          (requestedLeaves id filter) own ∧
        c.leavesWithin [] = own.flatten := by
  have hroot : t.mapping.manyRoot = t.mapping.nestedOn? := funext hm.manyRoot_eq
  constructor
  · intro path f hplain hvalid
    have hfaults : f.leaves.flatMap (Leaf.faults t) = [] :=
      List.flatMap_eq_nil_iff.mpr fun l hl => Leaf.faults_eq_nil_iff.mpr (hvalid l hl)
    obtain ⟨c, hc⟩ := (hfaults ▸ failsWith_condition (t := t) f).exists_ok
    obtain ⟨p, rfl, hp⟩ := hplain.exists_leaf hc
    have halone : (Condition.leaf p).part.alone = nestedIn p.manyRoot p.clause := by
      obtain ⟨root, clause⟩ := p
      cases root <;> rfl
    refine ⟨p.clause, ?_⟩
    rw [compile_filter, hc, ← hroot, ← hp, ← halone]
    rfl
  · intro id filter c hcompiled
    obtain ⟨k, rfl, hplaced⟩ := exists_condition_of_compile hcompiled
    obtain ⟨own, hown, hflat⟩ := Leaf.forall₂_of_placedAll hplaced
    refine ⟨(Part.allSound_alone (Condition.allSound_part k)).wellScoped,
      own.map (List.map Part.place), ?_, ?_⟩
    · rw [List.forall₂_map_right_iff]
      refine hown.imp fun l placed hl => ?_
      obtain ⟨hlength, hleaf⟩ := Leaf.placed_spec hl
      refine ⟨by rw [List.length_map, hlength], List.forall_mem_map.mpr fun p hp => ?_⟩
      rw [Part.place, hleaf p hp, Leaf.manyRoot, hroot]
    · rw [← List.map_flatten, ← hflat]
      exact Condition.placedLeaves_part k

/-! ### A list in a list below a text -/

/-- Parcels whose sizes have an empty segment in their path, below two lists and a text. -/
def parcels : RecordType :=
  let mapping := ((((Mapping.empty "parcels" "parcel").property "box.items.parts..size"
    .long).property "box.items.parts" .list).property "box" .string).property "box.items" .list
  ⟨"parcel", mapping, "id"⟩

def threeLong : Filter := .range "box.items.parts..size" (.single .ge (.integer 3))

theorem nestedOn?_size : parcels.mapping.nestedOn? "box.items.parts..size" = some "box.items" := by
  decide +kernel

theorem nestedOn?_box : parcels.mapping.nestedOn? "box" = none := by
  decide +kernel

theorem nested_as_indexed_threeLong :
    parcels.mapping.Built ∧ PlainLeaf "box.items.parts..size" threeLong ∧
      (∀ l ∈ threeLong.leaves, l.Valid parcels.mapping) ∧
      (∃ l, compile parcels none (some threeLong) = .ok (.nested "box.items" (.leaf l))) ∧
      ∃ c, compile parcels none (some (.or [threeLong, .exists "box" false])) = .ok c ∧
        c.WellScoped ∧ (c.leavesWithin []).map Prod.fst = [["box.items"], []] := by
  have hbuilt : parcels.mapping.Built :=
    .property (.property (.property (.property (.empty _ _) _ _) _ _) _ _) _ _
  have hvalid : ∀ l ∈ threeLong.leaves, l.Valid parcels.mapping := by
    refine List.forall_mem_singleton.mpr ⟨?_, trivial, by simp [Leaf.values]⟩
    rintro path ⟨⟩
    decide +kernel
  have hplain : PlainLeaf "box.items.parts..size" threeLong := .range _
  obtain ⟨halone, hwithin⟩ := nested_as_indexed hbuilt
  have hleaf := halone _ _ hplain hvalid
  rw [nestedOn?_size] at hleaf
  have hfaults : (requestedLeaves none (some (.or [threeLong, .exists "box" false]))).flatMap
      (Leaf.faults parcels) = [] := List.isEmpty_iff.mp (by decide +kernel)
  obtain ⟨c, hc⟩ := (hfaults ▸ failsWith_compile (t := parcels) (.inr (by simp))).exists_ok
  obtain ⟨hscoped, own, hown, hleaves⟩ := hwithin _ _ c hc
  refine ⟨hbuilt, hplain, hvalid, hleaf, c, hc, hscoped, ?_⟩
  have hown : List.Forall₂ _ [Leaf.range _ _, Leaf.exists _] own := hown
  obtain _ | ⟨hsize, _ | ⟨hbox, _ | _⟩⟩ := hown
  obtain ⟨size, rfl⟩ := List.length_eq_one_iff.mp hsize.1
  obtain ⟨box, rfl⟩ := List.length_eq_one_iff.mp hbox.1
  have hsizeRoot := hsize.2 size (List.mem_singleton_self size)
  have hboxRoot := hbox.2 box (List.mem_singleton_self box)
  rw [Leaf.path?, Option.bind_some, nestedOn?_size] at hsizeRoot
  rw [Leaf.path?, Option.bind_some, nestedOn?_box] at hboxRoot
  simp [hleaves, hsizeRoot, hboxRoot]

end Filter

end DocumentSearch
