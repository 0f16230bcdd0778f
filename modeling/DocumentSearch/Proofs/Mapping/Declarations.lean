import DocumentSearch.Proofs.Mapping.ExactField

/-!
# The index, node by node

What an index is created with is told by the declarations of its mapping, place by place. There is
a node where a declared path leads, and no other. The last declaration of the node's own path and
whether anything is declared below it say how the node is written, so the order in which properties
are declared leaves no trace.
-/

namespace DocumentSearch

namespace Mapping

/-! ### Declarations in a row -/

/-- The mapping that is made by declaring properties one after the other. -/
def ofDeclarations (index docType : String) (ps : List Property) : Mapping :=
  ps.foldl declare (empty index docType)

/-- The last declaration of a name. -/
def latest? (ps : List Property) (name : String) : Option Property :=
  ps.reverse.find? fun p => p.name = name

section Declarations

variable (index docType : String) (ps : List Property)

theorem ofDeclarations_append (p : Property) :
    ofDeclarations index docType (ps ++ [p]) = (ofDeclarations index docType ps).declare p :=
  List.foldl_append

theorem docType_ofDeclarations : (ofDeclarations index docType ps).docType = docType := by
  induction ps using List.reverseRecOn with
  | nil => rfl
  | append_singleton ps p ih =>
    rw [ofDeclarations_append]
    exact ih

theorem nodup_ofDeclarations :
    ((ofDeclarations index docType ps).properties.map Property.name).Nodup := by
  induction ps using List.reverseRecOn with
  | nil => exact List.nodup_nil
  | append_singleton ps p ih =>
    rw [ofDeclarations_append]
    exact nodup_declareIn ih

theorem get?_declare (m : Mapping) (p : Property) (name : String) :
    (m.declare p).get? name = if p.name = name then some p else m.get? name := by
  obtain ⟨index, docType, properties⟩ := m
  simp only [get?, declare]
  induction properties with
  | nil => by_cases h : p.name = name <;> simp [declareIn, h]
  | cons first rest ih =>
    rw [declareIn]
    by_cases hfirst : first.name = p.name
    · by_cases h : p.name = name <;> simp [hfirst, h]
    · by_cases h : first.name = name
      · have hne : p.name ≠ name := fun heq => hfirst (h.trans heq.symm)
        simp [h, hne, Ne.symm hne]
      · simp [hfirst, h, ih]

theorem get?_ofDeclarations (name : String) :
    (ofDeclarations index docType ps).get? name = latest? ps name := by
  induction ps using List.reverseRecOn with
  | nil => rfl
  | append_singleton ps p ih =>
    rw [ofDeclarations_append, get?_declare, ih, latest?, latest?, List.reverse_append,
      List.reverse_singleton, List.singleton_append, List.find?_cons]
    by_cases h : p.name = name <;> simp [h]

theorem mem_names_ofDeclarations (name : String) :
    name ∈ (ofDeclarations index docType ps).properties.map Property.name ↔
      name ∈ ps.map Property.name := by
  induction ps using List.reverseRecOn with
  | nil => exact Iff.rfl
  | append_singleton ps p ih =>
    rw [ofDeclarations_append, declare, names_declareIn, List.map_append, List.mem_append, ← ih]
    split
    next hold =>
      refine ⟨.inl, fun h => h.elim id fun hname => ?_⟩
      rw [List.mem_singleton.mp hname]
      exact hold
    next => exact List.mem_append

theorem exists_property_iff {index docType : String} {ps : List Property} (C : String → Prop) :
    (∃ p ∈ (ofDeclarations index docType ps).properties, C p.name) ↔ ∃ p ∈ ps, C p.name := by
  have hmap : ∀ qs : List Property,
      (∃ p ∈ qs, C p.name) ↔ ∃ name ∈ qs.map Property.name, C name := by simp
  rw [hmap, hmap]
  exact exists_congr fun name => and_congr_left' (mem_names_ofDeclarations index docType ps name)

/-- A node carries the last declaration of its path. -/
theorem ownAt_ofDeclarations (path : String) :
    MappingNode.ownAt (Path.segments path)
        (MappingNode.ofProperties (ofDeclarations index docType ps).properties) =
      match latest? ps path with
      | some p => (some p.kind, MappingNode.subFieldOf p)
      | none => (none, none) := by
  have hnodup := nodup_ofDeclarations index docType ps
  rw [MappingNode.ownAt_ofProperties, find?_reverse_of_nodup hnodup,
    ← get?_ofDeclarations index docType]
  rfl

end Declarations

end Mapping

/-! ### What a node is written as -/

/-- The properties of a node: one for each segment with which a declared path goes on, in order. -/
structure ListsBelow (ps : List Property) (segments : List String) (children : Members Json) :
    Prop where
  sorted : children.Sorted
  mem_iff : ∀ s, s ∈ children.map Prod.fst ↔ ∃ p ∈ ps, segments ++ [s] <+: Path.segments p.name

/-- A node that is written with its properties. -/
def IsBranch (ps : List Property) (segments : List String) (type : String) (node : Json) : Prop :=
  ∃ children, ListsBelow ps segments children ∧
    node = .ofMembers [("type", .string type), ("properties", .object children)]

/-- A property without others below it: the engine's type and, for a raw field, a sub-field that is
not analysed. What follows the property's own name and a dot in the raw name is the name of the
sub-field, and otherwise `raw` is. -/
def Property.leafJson (p : Property) : Json :=
  .ofMembers (("type", .string p.kind.engineType) ::
    match p.raw with
    | none => []
    | some raw => [("fields", .ofMembers [((Path.below? p.name raw).getD "raw",
        .ofMembers [("type", .string "string"), ("index", .string "not_analyzed")])])])

/-- Whether a path is declared that goes on from `segments`. -/
def DeclaredBelow (ps : List Property) (segments : List String) : Prop :=
  ∃ p ∈ ps, segments <+: Path.segments p.name ∧ segments ≠ Path.segments p.name

instance (ps : List Property) (segments : List String) : Decidable (DeclaredBelow ps segments) :=
  inferInstanceAs
    (Decidable (∃ p ∈ ps, segments <+: Path.segments p.name ∧ segments ≠ Path.segments p.name))

/-- The kind that was declared last at the end of `segments`. -/
def latestKind? (ps : List Property) (segments : List String) : Option PropertyKind :=
  (Mapping.latest? ps (Path.join segments)).map Property.kind

/-- How a node is written. A list is `nested`. Otherwise an object, a root, a path that is not
declared and one with others below it are an `object`. Whatever is left was declared, and is written
as a leaf. -/
structure NodeFits (ps : List Property) (segments : List String) (node : Json) : Prop where
  nested_iff : IsBranch ps segments "nested" node ↔ latestKind? ps segments = some .list
  object_iff : IsBranch ps segments "object" node ↔ latestKind? ps segments ≠ some .list ∧
    (latestKind? ps segments = none ∨ latestKind? ps segments = some .object ∨
      latestKind? ps segments = some .root ∨ DeclaredBelow ps segments)
  leaf : ¬IsBranch ps segments "nested" node → ¬IsBranch ps segments "object" node →
    ∃ p, Mapping.latest? ps (Path.join segments) = some p ∧ p.kind.isContainer = false ∧
      node = p.leafJson

theorem IsBranch.get?_type {ps : List Property} {segments : List String} {type : String}
    {node : Json} (h : IsBranch ps segments type node) :
    node.get? "type" = some (.string type) := by
  obtain ⟨children, -, rfl⟩ := h
  simp [Json.get?_ofMembers_cons, Json.get?_ofMembers_nil]

theorem Property.get?_leafJson_type (p : Property) :
    p.leafJson.get? "type" = some (.string p.kind.engineType) := by
  obtain ⟨name, kind, raw⟩ := p
  cases raw <;> simp [leafJson, Json.get?_ofMembers_cons, Json.get?_ofMembers_nil]

theorem IsBranch.type_unique {ps : List Property} {segments : List String} {type other : String}
    {node : Json} (h : IsBranch ps segments type node) (hother : IsBranch ps segments other node) :
    type = other := by
  have htype := h.get?_type
  rw [hother.get?_type] at htype
  exact (Json.string.inj (Option.some.inj htype)).symm

theorem Property.engineType_of_isBranch {p : Property} {ps : List Property} {segments : List String}
    {type : String} (h : IsBranch ps segments type p.leafJson) : p.kind.engineType = type := by
  have htype := h.get?_type
  rw [get?_leafJson_type] at htype
  exact Json.string.inj (Option.some.inj htype)

/-- The engine's types for leaves are none of those for nodes with properties. -/
theorem PropertyKind.engineType_ne_of_leaf {kind : PropertyKind} (h : kind.isContainer = false) :
    kind.engineType ≠ "nested" ∧ kind.engineType ≠ "object" := by
  revert h
  cases kind <;> decide

theorem PropertyKind.isContainer_eq_false_iff {kind : PropertyKind} :
    kind.isContainer = false ↔ kind ≠ .list ∧ kind ≠ .object ∧ kind ≠ .root := by
  cases kind <;> decide

namespace NodeFits

variable {ps : List Property} {segments : List String} {node : Json}

theorem of_nested (hnode : IsBranch ps segments "nested" node)
    (hkind : latestKind? ps segments = some .list) : NodeFits ps segments node where
  nested_iff := iff_of_true hnode hkind
  object_iff := by
    refine iff_of_false (fun hobject => ?_) fun h => h.1 hkind
    exact absurd (hnode.type_unique hobject) (by decide)
  leaf := fun hnested => absurd hnode hnested

theorem of_object (hnode : IsBranch ps segments "object" node)
    (hkind : latestKind? ps segments ≠ some .list)
    (hform : latestKind? ps segments = none ∨ latestKind? ps segments = some .object ∨
      latestKind? ps segments = some .root ∨ DeclaredBelow ps segments) :
    NodeFits ps segments node where
  nested_iff := by
    refine iff_of_false (fun hnested => ?_) hkind
    exact absurd (hnode.type_unique hnested) (by decide)
  object_iff := iff_of_true hnode ⟨hkind, hform⟩
  leaf := fun _ hobject => absurd hnode hobject

theorem of_leaf {p : Property} (hlatest : Mapping.latest? ps (Path.join segments) = some p)
    (hkind : p.kind.isContainer = false) (hbelow : ¬DeclaredBelow ps segments) :
    NodeFits ps segments p.leafJson := by
  have hlatestKind : latestKind? ps segments = some p.kind := by rw [latestKind?, hlatest]; rfl
  obtain ⟨hlist, hobject, hroot⟩ := PropertyKind.isContainer_eq_false_iff.mp hkind
  obtain ⟨htypeNested, htypeObject⟩ := PropertyKind.engineType_ne_of_leaf hkind
  refine ⟨iff_of_false (fun h => ?_) ?_, iff_of_false (fun h => ?_) fun h => ?_,
    fun _ _ => ⟨p, hlatest, hkind, rfl⟩⟩
  · exact htypeNested (Property.engineType_of_isBranch h)
  · simpa [hlatestKind] using hlist
  · exact htypeObject (Property.engineType_of_isBranch h)
  · simp [hlatestKind, hobject, hroot, hbelow] at h

end NodeFits

namespace MappingNode

theorem names_childrenJson (children : List (String × MappingNode)) :
    (childrenJson children).map Prod.fst = children.map Prod.fst := by
  induction children with
  | nil => rfl
  | cons entry rest ih => rw [childrenJson, List.map_cons, List.map_cons, ih]

theorem leafJson_eq (p : Property) : leafJson p.kind (subFieldOf p) = p.leafJson := by
  obtain ⟨name, kind, raw⟩ := p
  cases raw <;> rfl

theorem isContainer_getD_iff (kind : Option PropertyKind) :
    (kind.getD .object).isContainer = true ↔ kind = some .list ∨ kind = none ∨
      kind = some .object ∨ kind = some .root := by
  cases kind with
  | none => simp [PropertyKind.isContainer]
  | some kind => cases kind <;> simp [PropertyKind.isContainer]

section Node

variable {index docType : String} {ps : List Property} {segments : List String} {n : MappingNode}
  (hn : at? segments (ofProperties (Mapping.ofDeclarations index docType ps).properties) = some n)

include hn

theorem listsBelow_children : ListsBelow ps segments (childrenJson n.children) := by
  constructor
  · rw [Members.Sorted, ← List.pairwise_map (f := Prod.fst) (R := (· < ·)), names_childrenJson,
      List.pairwise_map]
    exact ((tidy_ofProperties _).at? hn).sorted
  · intro s
    rw [names_childrenJson, ← Members.isSome_find?_iff, isSome_child_iff hn]
    exact Mapping.exists_property_iff fun name => segments ++ [s] <+: Path.segments name

/-- Segments that lead to a node are those of a path, since they lead to a declared property. -/
theorem segments_join_of_at? (hne : segments ≠ []) :
    Path.segments (Path.join segments) = segments := by
  have hsome := (isSome_at?_ofProperties _ segments).mp (Option.isSome_of_mem hn)
  obtain ⟨p, -, hprefix⟩ := hsome.resolve_left hne
  exact Path.segments_join hne fun s hs => hprefix.subset hs

theorem own_eq (hne : segments ≠ []) :
    n.own = match Mapping.latest? ps (Path.join segments) with
      | some p => (some p.kind, subFieldOf p)
      | none => (none, none) := by
  have hown := Mapping.ownAt_ofDeclarations index docType ps (Path.join segments)
  rw [segments_join_of_at? hn hne, ownAt, hn] at hown
  exact hown

theorem own_fst_eq (hne : segments ≠ []) : n.own.1 = latestKind? ps segments := by
  rw [own_eq hn hne, latestKind?]
  cases Mapping.latest? ps (Path.join segments) <;> rfl

theorem children_ne_nil_iff_below (hne : segments ≠ []) :
    n.children ≠ [] ↔ DeclaredBelow ps segments := by
  have hsegments := segments_join_of_at? hn hne
  rw [← hsegments] at hn
  rw [children_ne_nil_iff hn, DeclaredBelow,
    Mapping.exists_property_iff fun name => ∃ rest, name = Path.child (Path.join segments) rest]
  refine exists_congr fun p => and_congr_right' ?_
  rw [Path.exists_child_iff, hsegments]
  constructor
  · rintro ⟨more, hmore, hname⟩
    rw [hname]
    exact ⟨List.prefix_append _ _, fun heq => hmore (List.self_eq_append_right.mp heq)⟩
  · rintro ⟨⟨more, hname⟩, hlonger⟩
    refine ⟨more, fun hnil => hlonger ?_, hname.symm⟩
    rw [← hname, hnil, List.append_nil]

theorem isBranch_iff (hne : segments ≠ []) :
    n.isBranch ↔ latestKind? ps segments = some .list ∨ latestKind? ps segments = none ∨
      latestKind? ps segments = some .object ∨ latestKind? ps segments = some .root ∨
      DeclaredBelow ps segments := by
  rw [isBranch, own_fst_eq hn hne, isContainer_getD_iff, children_ne_nil_iff_below hn hne]
  simp only [or_assoc]

theorem isBranch_toJson (h : n.isBranch) :
    IsBranch ps segments (if n.own.1.getD .object = .list then "nested" else "object") n.toJson :=
  ⟨_, listsBelow_children hn, toJson_of_isBranch h⟩

theorem nodeFits_toJson (hne : segments ≠ []) : NodeFits ps segments n.toJson := by
  have hown := own_fst_eq hn hne
  by_cases hbranch : n.isBranch
  · have hnode := isBranch_toJson hn hbranch
    have hform := (isBranch_iff hn hne).mp hbranch
    rw [hown] at hnode
    by_cases hlist : latestKind? ps segments = some .list
    · rw [hlist, Option.getD_some, if_pos rfl] at hnode
      exact .of_nested hnode hlist
    · have hkind : (latestKind? ps segments).getD .object ≠ .list := by
        cases h : latestKind? ps segments <;> simp_all
      rw [if_neg hkind] at hnode
      exact .of_object hnode hlist (hform.resolve_left hlist)
  · have hform := mt (isBranch_iff hn hne).mpr hbranch
    have hnode := toJson_of_not_isBranch hbranch
    obtain ⟨hkind, -⟩ := not_or.mp hbranch
    cases hlatest : Mapping.latest? ps (Path.join segments) with
    -- What is not declared is an object and would have been a branch.
    | none => exact absurd (.inr (.inl (by rw [latestKind?, hlatest]; rfl))) hform
    | some p =>
      rw [own_eq hn hne, hlatest, Option.getD_some] at hkind hnode
      rw [hnode, leafJson_eq]
      exact .of_leaf hlatest (Bool.eq_false_iff.mpr hkind)
        fun hbelow => hform (.inr (.inr (.inr (.inr hbelow))))

end Node

end MappingNode

namespace Mapping

/-! ### The whole index -/

theorem ofProperties_perm {ps qs : List Property} (h : ps.Perm qs)
    (hnodup : (ps.map Property.name).Nodup) :
    MappingNode.ofProperties ps = MappingNode.ofProperties qs := by
  refine h.foldl_eq' (fun p hp q hq n => ?_) _
  by_cases hname : p.name = q.name
  -- The later of two declarations of one path would stay, but here they are the same.
  · rw [List.inj_on_of_nodup_map hnodup hp hq hname]
  · exact MappingNode.declare_comm (fun heq => hname (Path.segments_injective heq)) n _ _

/-- Orders with their items, which were an object at first. Nothing declares `address`. -/
def itemised : List Property :=
  [⟨"name", .string, some "name.exact"⟩, ⟨"items", .object, none⟩, ⟨"address.city", .string, none⟩,
    ⟨"items", .list, none⟩, ⟨"items.price", .long, none⟩]

/-- The same orders, declared from the inside out. -/
def itemisedInward : List Property :=
  [⟨"items.price", .long, none⟩, ⟨"items", .list, none⟩, ⟨"address.city", .string, none⟩,
    ⟨"name", .string, some "name.exact"⟩]

end Mapping

end DocumentSearch
