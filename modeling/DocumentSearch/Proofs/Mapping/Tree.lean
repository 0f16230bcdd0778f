import DocumentSearch.Mapping.IndexBody
import DocumentSearch.Proofs.Json.Members
import DocumentSearch.Proofs.Text.Path

/-!
# The tree of a mapping

What stands where in the tree that a list of declarations makes. There is a node at each path that
leads to a declared property, and no other. A node carries what was declared last at its own path,
and nothing if only longer paths were declared. Its children are in order, so that the tree is the
same in whatever order different paths are declared.
-/

namespace DocumentSearch

namespace MappingNode

/-! ### Walking -/

/-- The node at the end of `segments` below a node. -/
def at? : List String → MappingNode → Option MappingNode
  | [], n => some n
  | s :: rest, n => (Members.find? n.children s).bind (at? rest)

/-- What is declared at a node itself. -/
def own : MappingNode → Option PropertyKind × Option String
  | .node kind subField _ => (kind, subField)

/-- What is declared at the end of `segments`; where there is no node, nothing is. -/
def ownAt (segments : List String) (n : MappingNode) : Option PropertyKind × Option String :=
  ((at? segments n).map own).getD (none, none)

theorem ownAt_nil (n : MappingNode) : ownAt [] n = n.own := rfl

theorem at?_cons (s : String) (rest : List String) (n : MappingNode) :
    at? (s :: rest) n = (Members.find? n.children s).bind (at? rest) := rfl

theorem at?_append (first others : List String) (n : MappingNode) :
    at? (first ++ others) n = (at? first n).bind (at? others) := by
  induction first generalizing n with
  | nil => rfl
  | cons s rest ih =>
    rw [List.cons_append, at?_cons, at?_cons]
    cases Members.find? n.children s with
    | none => rfl
    | some child => exact ih child

theorem ownAt_blank (segments : List String) : ownAt segments blank = (none, none) := by
  cases segments <;> rfl

theorem ownAt_cons (s : String) (rest : List String) (n : MappingNode) :
    ownAt (s :: rest) n = ownAt rest ((Members.find? n.children s).getD blank) := by
  rw [ownAt, at?_cons]
  cases Members.find? n.children s with
  | none => rw [Option.getD_none, ownAt_blank]; rfl
  | some child => rfl

theorem isSome_at?_cons (s : String) (rest : List String) (n : MappingNode) :
    (at? (s :: rest) n).isSome ↔
      ∃ child, Members.find? n.children s = some child ∧ (at? rest child).isSome := by
  rw [at?_cons]
  cases Members.find? n.children s <;> simp

/-! ### One declaration -/

section Declare

variable {kind : PropertyKind} {subField : Option String}

theorem own_declare_cons (s : String) (rest : List String) (n : MappingNode) :
    (declare kind subField (s :: rest) n).own = n.own := by
  cases n
  rfl

theorem children_declare_nil (n : MappingNode) :
    (declare kind subField [] n).children = n.children := by
  cases n
  rfl

theorem find?_declare_cons (s : String) (rest : List String) (n : MappingNode) (other : String) :
    Members.find? (declare kind subField (s :: rest) n).children other =
      if s = other then
        some (declare kind subField rest ((Members.find? n.children s).getD blank))
      else Members.find? n.children other := by
  cases n
  exact Members.find?_insert ..

/-- A declaration says something of its own path and of no other. -/
theorem ownAt_declare (path segments : List String) (n : MappingNode) :
    ownAt segments (declare kind subField path n) =
      if path = segments then (some kind, subField) else ownAt segments n := by
  induction path generalizing n segments with
  | nil =>
    cases segments with
    | nil => cases n; rfl
    | cons s rest => rw [ownAt_cons, ownAt_cons, children_declare_nil, if_neg (by simp)]
  | cons s path ih =>
    cases segments with
    | nil => rw [ownAt_nil, own_declare_cons, if_neg (by simp), ownAt_nil]
    | cons other rest =>
      rw [ownAt_cons, find?_declare_cons, ownAt_cons]
      by_cases hs : s = other
      · subst hs
        rw [if_pos rfl, Option.getD_some, ih]
        simp
      · rw [if_neg hs, if_neg (by simp [hs])]

/-- A declaration makes the nodes on its way. -/
theorem isSome_at?_declare (path segments : List String) (n : MappingNode) :
    (at? segments (declare kind subField path n)).isSome ↔
      segments <+: path ∨ (at? segments n).isSome := by
  induction path generalizing n segments with
  | nil =>
    cases segments with
    | nil => simp [at?]
    | cons s rest => simp [at?_cons, children_declare_nil]
  | cons s path ih =>
    cases segments with
    | nil => simp [at?]
    | cons other rest =>
      rw [isSome_at?_cons, isSome_at?_cons, find?_declare_cons]
      by_cases hs : s = other
      · subst hs
        simp only [if_true, Option.some.injEq, exists_eq_left', ih, List.cons_prefix_cons,
          true_and]
        cases hfound : Members.find? n.children s with
        | none => cases rest <;> simp [at?, blank, children, Members.find?]
        | some child => simp
      · have hprefix : ¬other :: rest <+: s :: path := by
          rw [List.cons_prefix_cons]
          exact fun h => hs h.1.symm
        simp [hs, hprefix]

/-- Declarations of different paths can change places. -/
theorem declare_comm {path other : List String} (h : path ≠ other) (n : MappingNode)
    (otherKind : PropertyKind) (otherField : Option String) :
    declare otherKind otherField other (declare kind subField path n) =
      declare kind subField path (declare otherKind otherField other n) := by
  induction path generalizing other n with
  | nil =>
    cases other with
    | nil => exact absurd rfl h
    | cons t ts => cases n; rfl
  | cons s path ih =>
    cases n with
    | node k f entries =>
      cases other with
      | nil => rfl
      | cons t ts =>
        simp only [declare, Members.find?_insert]
        by_cases hs : s = t
        -- On a common segment, one child takes what is left of both.
        · subst hs
          have hne : path ≠ ts := fun heq => h (heq ▸ rfl)
          simp only [if_true, Option.getD_some, Members.insert_insert, ih hne]
        · rw [if_neg hs, if_neg (Ne.symm hs), Members.insert_comm _ hs]

end Declare

/-! ### All declarations -/

theorem ofProperties_append (ps : List Property) (p : Property) :
    ofProperties (ps ++ [p]) =
      (ofProperties ps).declare p.kind (subFieldOf p) (Path.segments p.name) := by
  simp [ofProperties, List.foldl_append]

/-- A node carries the last declaration of its path. -/
theorem ownAt_ofProperties (ps : List Property) (path : String) :
    ownAt (Path.segments path) (ofProperties ps) =
      match ps.reverse.find? fun p => p.name = path with
      | some p => (some p.kind, subFieldOf p)
      | none => (none, none) := by
  induction ps using List.reverseRecOn with
  | nil => exact ownAt_blank _
  | append_singleton ps p ih =>
    rw [ofProperties_append, ownAt_declare, List.reverse_append, List.reverse_singleton,
      List.singleton_append]
    by_cases hname : p.name = path
    · simp [hname]
    · have hsegments : Path.segments p.name ≠ Path.segments path :=
        fun h => hname (Path.segments_injective h)
      rw [if_neg hsegments, ih, List.find?_cons_of_neg (by simpa using hname)]

/-- There is a node wherever a declared property is on the way, and nowhere else but at the root. -/
theorem isSome_at?_ofProperties (ps : List Property) (segments : List String) :
    (at? segments (ofProperties ps)).isSome ↔
      segments = [] ∨ ∃ p ∈ ps, segments <+: Path.segments p.name := by
  induction ps using List.reverseRecOn with
  | nil => cases segments <;> simp [ofProperties, at?, blank, children, Members.find?]
  | append_singleton ps p ih =>
    rw [ofProperties_append, isSome_at?_declare, ih]
    simp only [List.mem_append, List.mem_singleton, or_and_right, exists_or, exists_eq_left]
    rw [or_comm, or_assoc]

/-- A node has a child wherever something is declared further on. -/
theorem isSome_child_iff {ps : List Property} {segments : List String} {n : MappingNode}
    (h : at? segments (ofProperties ps) = some n) (s : String) :
    (Members.find? n.children s).isSome ↔
      ∃ p ∈ ps, segments ++ [s] <+: Path.segments p.name := by
  have hstep : at? (segments ++ [s]) (ofProperties ps) = Members.find? n.children s := by
    rw [at?_append, h, Option.bind_some, at?_cons]
    cases Members.find? n.children s <;> rfl
  rw [← hstep, isSome_at?_ofProperties]
  simp

/-- A node has children if and only if something is declared below it. -/
theorem children_ne_nil_iff {ps : List Property} {path : String} {n : MappingNode}
    (h : at? (Path.segments path) (ofProperties ps) = some n) :
    n.children ≠ [] ↔ ∃ p ∈ ps, ∃ rest, p.name = Path.child path rest := by
  constructor
  · intro hsome
    obtain ⟨⟨s, child⟩, others, hentries⟩ := List.exists_cons_of_ne_nil hsome
    have hfound : (Members.find? n.children s).isSome := by simp [hentries, Members.find?]
    obtain ⟨p, hp, more, hname⟩ := (isSome_child_iff h s).mp hfound
    refine ⟨p, hp, Path.exists_child_iff.mpr ⟨s :: more, by simp, ?_⟩⟩
    rw [← hname, List.append_assoc, List.singleton_append]
  · rintro ⟨p, hp, hbelow⟩ hnone
    obtain ⟨more, hmore, hname⟩ := Path.exists_child_iff.mp hbelow
    obtain ⟨s, others, rfl⟩ := List.exists_cons_of_ne_nil hmore
    have hfound : (Members.find? n.children s).isSome := by
      refine (isSome_child_iff h s).mpr ⟨p, hp, others, ?_⟩
      rw [hname, List.append_assoc, List.singleton_append]
    simp [hnone, Members.find?] at hfound

/-! ### The order of children -/

/-- The children of a node are in order, and so are those of each child. -/
inductive Tidy : MappingNode → Prop where
  | node (kind : Option PropertyKind) (subField : Option String)
    (children : List (String × MappingNode)) (hsorted : Members.Sorted children)
    (h : ∀ e ∈ children, Tidy e.2) : Tidy (.node kind subField children)

theorem tidy_blank : Tidy blank := .node _ _ [] List.Pairwise.nil fun _ he => by cases he

theorem Tidy.sorted {n : MappingNode} (h : n.Tidy) : Members.Sorted n.children := by
  cases h
  assumption

theorem Tidy.child {n child : MappingNode} {s : String} (h : n.Tidy)
    (hchild : Members.find? n.children s = some child) : child.Tidy := by
  cases h with
  | node kind subField entries hsorted h => exact h _ (Members.mem_of_find?_eq_some hchild)

theorem Tidy.declare {n : MappingNode} (h : n.Tidy) (kind : PropertyKind)
    (subField : Option String) (path : List String) : (n.declare kind subField path).Tidy := by
  induction path generalizing n with
  | nil =>
    cases h with
    | node k f entries hsorted h => exact .node _ _ _ hsorted h
  | cons s path ih =>
    have hown : ((Members.find? n.children s).getD blank).Tidy := by
      cases hchild : Members.find? n.children s with
      | none => exact tidy_blank
      | some child => exact h.child hchild
    cases h with
    | node k f entries hsorted h =>
      refine .node _ _ _ (hsorted.insert s _) fun e he => ?_
      rcases Members.mem_insert he with rfl | he
      · exact ih hown
      · exact h e he

theorem tidy_ofProperties (ps : List Property) : (ofProperties ps).Tidy := by
  induction ps using List.reverseRecOn with
  | nil => exact tidy_blank
  | append_singleton ps p ih =>
    rw [ofProperties_append]
    exact ih.declare _ _ _

theorem Tidy.at? {n node : MappingNode} {segments : List String} (h : n.Tidy)
    (hnode : MappingNode.at? segments n = some node) : node.Tidy := by
  induction segments generalizing n with
  | nil =>
    obtain rfl := Option.some.inj hnode
    exact h
  | cons s rest ih =>
    rw [at?_cons, Option.bind_eq_some_iff] at hnode
    obtain ⟨child, hchild, hnode⟩ := hnode
    exact ih (h.child hchild) hnode

end MappingNode

end DocumentSearch
