import DocumentSearch.Proofs.Mapping.Tree
import DocumentSearch.Query.Compile
import Mathlib.Data.List.Nodup

/-!
# The field with the exact text

A mapping names the field for the exact text of a property twice: filters and sort keys use the name
that was declared, and the index is created with a sub-field of the property. The two are one field
exactly when the declared name stands below the property's own and nothing else does. A name that
stands elsewhere is indexed as the sub-field `raw`, and a property with others below it has no
sub-field at all.
-/

namespace DocumentSearch

/-! ### Mappings that can be built -/

/-- A mapping that is made by declaring one property after the other. -/
inductive Mapping.Built : Mapping → Prop where
  | empty (index docType : String) : Built (.empty index docType)
  | property {m : Mapping} (h : Built m) (name : String) (kind : PropertyKind) :
    Built (m.property name kind)
  | rawText {m : Mapping} (h : Built m) (name raw : String) : Built (m.rawText name raw)

namespace Mapping

theorem mem_declareIn {p q : Property} {ps : List Property} (h : q ∈ declareIn p ps) :
    q = p ∨ q ∈ ps := by
  induction ps with
  | nil => exact .inl (List.mem_singleton.mp h)
  | cons first rest ih =>
    rw [declareIn] at h
    split at h
    · rcases List.mem_cons.mp h with rfl | hrest
      · exact .inl rfl
      · exact .inr (List.mem_cons_of_mem first hrest)
    · rcases List.mem_cons.mp h with rfl | hrest
      · exact .inr List.mem_cons_self
      · exact (ih hrest).imp_right (List.mem_cons_of_mem first)

theorem names_declareIn (p : Property) (ps : List Property) :
    (declareIn p ps).map Property.name =
      if p.name ∈ ps.map Property.name then ps.map Property.name
      else ps.map Property.name ++ [p.name] := by
  induction ps with
  | nil => rfl
  | cons first rest ih =>
    rw [declareIn]
    by_cases hname : first.name = p.name
    · simp [hname]
    · simp only [hname, if_false, List.map_cons, ih, List.mem_cons, Ne.symm hname, false_or]
      split <;> simp

theorem nodup_declareIn {p : Property} {ps : List Property} (h : (ps.map Property.name).Nodup) :
    ((declareIn p ps).map Property.name).Nodup := by
  rw [names_declareIn]
  split
  · exact h
  next hnew =>
    refine List.nodup_append.mpr ⟨h, List.pairwise_singleton _ _, fun name hname other hother => ?_⟩
    rw [List.mem_singleton.mp hother]
    rintro rfl
    exact hnew hname

theorem find?_of_nodup {p : Property} {ps : List Property} (h : (ps.map Property.name).Nodup)
    (hp : p ∈ ps) : ps.find? (fun q => q.name = p.name) = some p := by
  induction ps with
  | nil => cases hp
  | cons first rest ih =>
    rw [List.map_cons, List.nodup_cons] at h
    rcases List.mem_cons.mp hp with rfl | hrest
    · exact List.find?_cons_of_pos (by simp)
    · have hne : first.name ≠ p.name := by
        intro heq
        exact h.1 (heq ▸ List.mem_map_of_mem hrest)
      rw [List.find?_cons_of_neg (by simpa using hne)]
      exact ih h.2 hrest

theorem find?_reverse_of_nodup {ps : List Property} (h : (ps.map Property.name).Nodup)
    (name : String) :
    ps.reverse.find? (fun p => p.name = name) = ps.find? fun p => p.name = name := by
  have hreverse : (ps.reverse.map Property.name).Nodup := by
    rw [List.map_reverse, List.nodup_reverse]
    exact h
  cases hfound : ps.find? fun p => p.name = name with
  | none => simpa using hfound
  | some p =>
    obtain rfl : p.name = name := by simpa using List.find?_some hfound
    exact find?_of_nodup hreverse (List.mem_reverse.mpr (List.mem_of_find?_eq_some hfound))

theorem Built.nodup {m : Mapping} (h : m.Built) : (m.properties.map Property.name).Nodup := by
  induction h with
  | empty => exact List.nodup_nil
  | property _ name kind ih => exact nodup_declareIn ih
  | rawText _ name raw ih => exact nodup_declareIn ih

/-- Only texts have a field of their own for the exact text. -/
theorem Built.kind_of_raw {m : Mapping} (h : m.Built) {p : Property} (hp : p ∈ m.properties)
    {raw : String} (hraw : p.raw = some raw) : p.kind = .string := by
  induction h with
  | empty => cases hp
  | property _ name kind ih =>
    rcases mem_declareIn hp with rfl | hold
    · cases hraw
    · exact ih hold
  | rawText _ name raw ih =>
    rcases mem_declareIn hp with rfl | hold
    · rfl
    · exact ih hold

theorem Built.get?_of_mem {m : Mapping} (h : m.Built) {p : Property} (hp : p ∈ m.properties) :
    m.get? p.name = some p :=
  find?_of_nodup h.nodup hp

end Mapping

/-! ### Walking through an index body -/

namespace Json

/-- What a node of an index body says of the property at the end of `segments` below it. -/
def propertyAt? : List String → Json → Option Json
  | [], node => some node
  | s :: rest, node => ((node.get? "properties").bind (·.get? s)).bind (propertyAt? rest)

/-- Whether a node has a sub-field whose text is not analysed. -/
def HasExact (node : Json) (sub : String) : Prop :=
  ∃ exact, (node.get? "fields").bind (·.get? sub) = some exact ∧
    exact.get? "index" = some (.string "not_analyzed")

end Json

/-- What the index is created with at the end of `segments`. -/
def Mapping.nodeAt? (m : Mapping) (segments : List String) : Option Json :=
  ((m.indexBody.get? "mappings").bind (·.get? m.docType)).bind (Json.propertyAt? segments)

/-- What the index is created with for the property at a path. -/
def Mapping.indexedAt? (m : Mapping) (path : String) : Option Json :=
  ((m.indexBody.get? "mappings").bind (·.get? m.docType)).bind
    (Json.propertyAt? (Path.segments path))

namespace MappingNode

theorem find?_childrenJson (children : List (String × MappingNode)) (name : String) :
    Members.find? (childrenJson children) name =
      (Members.find? children name).map toJson := by
  induction children with
  | nil => rfl
  | cons entry rest ih =>
    obtain ⟨k, child⟩ := entry
    rw [childrenJson, Members.find?, Members.find?]
    by_cases h : k = name <;> simp [h, ih]

/-- A node with children, or of a kind that may have some, is written with them. -/
def isBranch (n : MappingNode) : Prop := (n.own.1.getD .object).isContainer = true ∨ n.children ≠ []

theorem toJson_of_isBranch {n : MappingNode} (h : n.isBranch) :
    n.toJson = .ofMembers [("type", .string (if n.own.1.getD .object = .list then "nested" else
      "object")), ("properties", .object (childrenJson n.children))] := by
  obtain ⟨kind, subField, entries⟩ := n
  have hcond : ((kind.getD .object).isContainer || !entries.isEmpty) = true := by
    rw [Bool.or_eq_true, Bool.not_eq_true', List.isEmpty_eq_false_iff]
    exact h
  rw [toJson, if_pos hcond]
  rfl

theorem toJson_of_not_isBranch {n : MappingNode} (h : ¬n.isBranch) :
    n.toJson = leafJson (n.own.1.getD .object) n.own.2 := by
  obtain ⟨kind, subField, entries⟩ := n
  have hcond : ¬((kind.getD .object).isContainer || !entries.isEmpty) = true := by
    rw [Bool.or_eq_true, Bool.not_eq_true', List.isEmpty_eq_false_iff]
    exact h
  rw [toJson, if_neg hcond]
  rfl

theorem get?_leafJson_properties (kind : PropertyKind) (subField : Option String) :
    (leafJson kind subField).get? "properties" = none := by
  cases subField <;> simp [leafJson, Json.get?_ofMembers_cons, Json.get?_ofMembers_nil]

/-- The properties of what is written are the children of the node. -/
theorem property_toJson (n : MappingNode) (s : String) :
    (n.toJson.get? "properties").bind (·.get? s) = (Members.find? n.children s).map toJson := by
  by_cases hbranch : n.isBranch
  · have hproperties : n.toJson.get? "properties" = some (.object (childrenJson n.children)) := by
      rw [toJson_of_isBranch hbranch]
      simp [Json.get?_ofMembers_cons, Json.get?_ofMembers_nil]
    rw [hproperties, Option.bind_some, Json.get?, find?_childrenJson]
  · have hnone : n.children = [] := not_not.mp (not_or.mp hbranch).2
    rw [toJson_of_not_isBranch hbranch, get?_leafJson_properties, hnone]
    rfl

/-- Walking through what is written is walking through the tree. -/
theorem propertyAt?_toJson (segments : List String) (n : MappingNode) :
    Json.propertyAt? segments n.toJson = (at? segments n).map toJson := by
  induction segments generalizing n with
  | nil => rfl
  | cons s rest ih =>
    rw [Json.propertyAt?, at?_cons, property_toJson]
    cases Members.find? n.children s with
    | none => rfl
    | some child => exact ih child

theorem hasExact_leafJson_iff (kind : PropertyKind) (subField : Option String) (sub : String) :
    (leafJson kind subField).HasExact sub ↔ subField = some sub := by
  cases subField with
  | none => simp [Json.HasExact, leafJson, Json.get?_ofMembers_cons, Json.get?_ofMembers_nil]
  | some own =>
    by_cases h : own = sub <;>
      simp [Json.HasExact, leafJson, Json.get?_ofMembers_cons, Json.get?_ofMembers_nil, h]

theorem hasExact_toJson_iff {n : MappingNode} {sub : String} :
    n.toJson.HasExact sub ↔ ¬n.isBranch ∧ n.own.2 = some sub := by
  by_cases hbranch : n.isBranch
  · rw [toJson_of_isBranch hbranch]
    simp only [hbranch, not_true_eq_false, false_and, iff_false]
    rintro ⟨exact, hfields, -⟩
    simp [Json.get?_ofMembers_cons, Json.get?_ofMembers_nil] at hfields
  · rw [toJson_of_not_isBranch hbranch, hasExact_leafJson_iff, and_iff_right hbranch]

end MappingNode

namespace Mapping

theorem nodeAt?_eq (m : Mapping) {segments : List String} (h : segments ≠ []) :
    m.nodeAt? segments =
      (MappingNode.at? segments (MappingNode.ofProperties m.properties)).map
        MappingNode.toJson := by
  obtain ⟨s, rest, rfl⟩ := List.exists_cons_of_ne_nil h
  rw [nodeAt?, indexBody, MappingNode.at?_cons]
  simp only [Json.get?_ofMembers_cons, Json.get?_ofMembers_nil, Option.none_or, if_true,
    Option.bind_some, Json.propertyAt?]
  rw [Json.get?, MappingNode.find?_childrenJson]
  cases Members.find? (MappingNode.ofProperties m.properties).children s with
  | none => rfl
  | some child => exact MappingNode.propertyAt?_toJson rest child

theorem indexedAt?_eq (m : Mapping) (path : String) :
    m.indexedAt? path =
      (MappingNode.at? (Path.segments path) (MappingNode.ofProperties m.properties)).map
        MappingNode.toJson :=
  m.nodeAt?_eq (Path.segments_ne_nil path)

/-- Whether the index has this field: the name of the property, a dot, and the name of a sub-field
that is not analysed. -/
def DeclaresExact (m : Mapping) (name field : String) : Prop :=
  ∃ node sub, m.indexedAt? name = some node ∧ node.HasExact sub ∧ field = Path.child name sub

section Built

variable {m : Mapping} {p : Property} {raw : String}

/-- Each declared property has its node, which carries its declaration. -/
theorem Built.exists_node (hm : m.Built) (hp : p ∈ m.properties) :
    ∃ n, MappingNode.at? (Path.segments p.name) (MappingNode.ofProperties m.properties) = some n ∧
      n.own = (some p.kind, MappingNode.subFieldOf p) := by
  have hsome := (MappingNode.isSome_at?_ofProperties m.properties (Path.segments p.name)).mpr
    (.inr ⟨p, hp, List.prefix_rfl⟩)
  obtain ⟨n, hn⟩ := Option.isSome_iff_exists.mp hsome
  have hown := MappingNode.ownAt_ofProperties m.properties p.name
  rw [find?_reverse_of_nodup hm.nodup, find?_of_nodup hm.nodup hp, MappingNode.ownAt, hn] at hown
  exact ⟨n, hn, hown⟩

/-- Filters and sort keys use the raw name of a property. The index has that field, not analysed,
if and only if the name stands below the property's own and no other property does. In any case the
index has a node for the property; without others below it, it has one sub-field, which is named
`raw` when the raw name stands elsewhere. -/
theorem exactField_declared_iff (hm : m.Built) (hp : p ∈ m.properties) (hraw : p.raw = some raw) :
    m.target? p.name = some ⟨raw, m.manyRoot p.name, .string⟩ ∧ m.rawField p.name = raw ∧
      (m.DeclaresExact p.name raw ↔
        (∃ sub, raw = Path.child p.name sub) ∧
          ∀ q ∈ m.properties, ∀ rest, q.name ≠ Path.child p.name rest) ∧
      ∃ node, m.indexedAt? p.name = some node ∧
        ((∀ q ∈ m.properties, ∀ rest, q.name ≠ Path.child p.name rest) →
          ∀ sub, node.HasExact sub ↔ sub = (Path.below? p.name raw).getD "raw") := by
  have hkind := hm.kind_of_raw hp hraw
  have hget := hm.get?_of_mem hp
  obtain ⟨n, hn, hown⟩ := hm.exists_node hp
  have hnode : m.indexedAt? p.name = some n.toJson := by rw [indexedAt?_eq, hn, Option.map_some]
  have hexact : ∀ sub, n.toJson.HasExact sub ↔
      (∀ q ∈ m.properties, ∀ rest, q.name ≠ Path.child p.name rest) ∧
        sub = (Path.below? p.name raw).getD "raw" := by
    intro sub
    rw [MappingNode.hasExact_toJson_iff, MappingNode.isBranch, hown, not_or,
      MappingNode.children_ne_nil_iff hn]
    simp [hkind, PropertyKind.isContainer, MappingNode.subFieldOf, hraw, eq_comm]
  refine ⟨by rw [target?, hget]; simp [hraw, hkind], by rw [rawField, hget]; simp [hraw], ?_,
    n.toJson, hnode, fun hnone sub => by rw [hexact, and_iff_right hnone]⟩
  constructor
  · rintro ⟨node, sub, hfound, hsub, hfield⟩
    obtain rfl : n.toJson = node := Option.some.inj (hnode.symm.trans hfound)
    exact ⟨⟨sub, hfield⟩, ((hexact sub).mp hsub).1⟩
  · rintro ⟨⟨sub, hfield⟩, hnone⟩
    refine ⟨n.toJson, sub, hnode, (hexact sub).mpr ⟨hnone, ?_⟩, hfield⟩
    rw [Path.below?_eq_some_iff.mpr hfield, Option.getD_some]

end Built

/-! ### A raw name that stands elsewhere -/

/-- Orders whose name has its exact text in a field that does not stand below it. -/
def namedOrders : Mapping := (empty "order" "order").rawText "name" "name_exact"

/-- Filters look in `name_exact`, and the index has `name.raw`. -/
theorem exactField_declared_iff_elsewhere :
    namedOrders.Built ∧ ⟨"name", .string, some "name_exact"⟩ ∈ namedOrders.properties ∧
      namedOrders.rawField "name" = "name_exact" ∧
      namedOrders.DeclaresExact "name" "name.raw" ∧
      ¬namedOrders.DeclaresExact "name" "name_exact" := by
  have hbuilt : namedOrders.Built := .rawText (.empty "order" "order") "name" "name_exact"
  have hmem : (⟨"name", .string, some "name_exact"⟩ : Property) ∈ namedOrders.properties :=
    List.mem_singleton.mpr rfl
  obtain ⟨-, hused, hiff, node, hnode, hsub⟩ := exactField_declared_iff hbuilt hmem rfl
  have hnone : ∀ q ∈ namedOrders.properties, ∀ rest, q.name ≠ Path.child "name" rest := by
    intro q hq rest hname
    obtain rfl := List.mem_singleton.mp hq
    have hlength := congrArg (fun s => s.toList.length) hname
    simp [Path.child] at hlength
  refine ⟨hbuilt, hmem, hused, ⟨node, "raw", hnode, (hsub hnone "raw").mpr ?_, rfl⟩, ?_⟩
  · decide +kernel
  · rw [hiff]
    rintro ⟨⟨sub, hfield⟩, -⟩
    have hbelow := Path.below?_eq_some_iff.mpr hfield
    revert hbelow
    simp only [show Path.below? "name" "name_exact" = none by decide +kernel]
    simp

end Mapping

end DocumentSearch
