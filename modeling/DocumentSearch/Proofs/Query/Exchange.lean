import DocumentSearch.Proofs.Filter.Exchange
import DocumentSearch.Proofs.Filter.Structure
import DocumentSearch.Query.Compile

/-!
# Other values in the same query

Whoever supplies the values of a query can change what its clauses compare with, and nothing else:
not which clauses there are, not how they are nested, not the window, the order or the selection,
and not whether there is a query document at all.
-/

namespace DocumentSearch

/-- A query document whose clauses have lost what they compare with. Other members are kept as they
are, an order by a property that is named like a clause among them. -/
def Json.clausesBlanked : Json → Json
  | .object members =>
    .object (Members.mapValues (fun name j => if name = "query" then j.blanked false else j)
      members)
  | j => j

theorem Json.clausesBlanked_ofMembers (entries : List (String × Json)) :
    (ofMembers entries).clausesBlanked =
      ofMembers (Members.mapValues (fun name j => if name = "query" then j.blanked false else j)
        entries) :=
  congrArg Json.object (Members.mapValues_ofList _ entries)

namespace Filter

variable {t : RecordType} {id id' : Option Scalar} {filter filter' : Option Filter}

/-- What stands in no scope, or in the one scope of an id and a filter, has the shape of its
parts. -/
theorem sameBut_compile (hid : Option.Rel Scalar.Exchanged id id')
    (hfilter : Option.Rel Exchanged filter filter') :
    SameBut Clause.blanked (compile t id filter) (compile t id' filter') := by
  have hids : ∀ {v w : Scalar}, v.Exchanged w →
      SameBut PlacedLeaf.blanked (idsLeaf [v]) (idsLeaf [w]) :=
    fun h => sameBut_idsLeaf (.cons h .nil)
  have halone : ∀ p q : Part, p.blanked = q.blanked → p.alone.blanked = q.alone.blanked := by
    intro p q hpq
    rw [← Part.alone_blanked, ← Part.alone_blanked, hpq]
  cases hid with
  | none =>
    cases hfilter with
    | none => rfl
    | some hf =>
      rw [compile_filter, compile_filter]
      exact (sameBut_condition hf).map fun c d => halone c.part d.part
  | some hv =>
    cases hfilter with
    | none =>
      rw [compile_id, compile_id]
      apply (hids hv).map
      intro l l' hl
      exact halone _ _ (congrArg Part.bare hl)
    | some hf =>
      rw [compile_id_filter, compile_id_filter]
      apply (hids hv).bind
      intro l l' hl
      apply (sameBut_conditions hf.conjuncts).bind
      intro cs ds hcs
      have hparts : (Part.bare l :: cs.map Condition.part).map Part.blanked =
          (Part.bare l' :: ds.map Condition.part).map Part.blanked := by
        rw [List.map_cons, List.map_cons, List.map_map, List.map_map]
        exact congrArg₂ List.cons (congrArg Part.bare hl) hcs
      exact .ok (by rw [Clause.blanked_bool, Clause.blanked_bool, ← Part.grouped_blanked,
        ← Part.grouped_blanked, hparts])

end Filter

namespace Query

/-- Requests for the same rows of the same properties in the same order, with ids and filters that
are exchanged for each other. -/
structure Exchanged (q r : Query) : Prop where
  recordType_eq : q.recordType = r.recordType
  id : Option.Rel Scalar.Exchanged q.id r.id
  filter : Option.Rel Filter.Exchanged q.filter r.filter
  order_eq : q.order = r.order
  firstRow_eq : q.firstRow = r.firstRow
  maxRows_eq : q.maxRows = r.maxRows
  selection_eq : q.selection = r.selection

variable {q r : Query}

theorem Exchanged.clauseJson (h : q.Exchanged r) :
    SameBut (Json.blanked false) q.clauseJson r.clauseJson := by
  obtain ⟨t, id, filter, order, firstRow, maxRows, selection⟩ := q
  obtain ⟨t', id', filter', order', firstRow', maxRows', selection'⟩ := r
  obtain ⟨rfl, hid, hfilter, -, -, -, -⟩ := h
  have hcompile := Filter.sameBut_compile (t := t) hid hfilter
  have hfiltered : ∀ c d : Clause, c.blanked = d.blanked →
      (Json.ofMembers [("filtered", .ofMembers [("filter", c.toJson)])]).blanked false =
        (Json.ofMembers [("filtered", .ofMembers [("filter", d.toJson)])]).blanked false := by
    intro c d hcd
    have hnames : "filtered" ∉ Json.valueClauses ∧ "filter" ∉ Json.valueClauses := by decide
    simp only [Json.blanked_ofMembers, List.map_cons, List.map_nil, hnames, decide_false,
      Bool.or_self, Clause.toJson_blanked_congr hcd]
  have hclause := hcompile.bind fun c d hcd => SameBut.ok (hfiltered c d hcd)
  cases hid with
  | some hv => exact hclause
  | none =>
    cases hfilter with
    | some hf => exact hclause
    | none => rfl

/-- Whatever values are exchanged, two requests fail with the same error, or they have query
documents that differ in nothing but what their clauses compare with. -/
theorem compile_of_exchanged (h : q.Exchanged r) :
    (∃ e, q.compile = .error e ∧ r.compile = .error e) ∨
      ∃ j k, q.compile = .ok j ∧ r.compile = .ok k ∧ j.clausesBlanked = k.clausesBlanked := by
  have hclause := h.clauseJson
  obtain ⟨t, id, filter, order, firstRow, maxRows, selection⟩ := q
  obtain ⟨t', id', filter', order', firstRow', maxRows', selection'⟩ := r
  obtain ⟨rfl, -, -, rfl, rfl, rfl, rfl⟩ := h
  apply SameBut.cases
  rw [compile, compile]
  apply hclause.bind
  intro j k hjk
  apply SameBut.ok
  simp only [Json.clausesBlanked_ofMembers, Members.mapValues, List.map_append, List.map_cons,
    List.map_nil, if_true, hjk]

/-- Orders found by their status. -/
def ordersByStatus : RecordType :=
  ⟨"order", (Mapping.empty "order" "order").property "status" .string, "id"⟩

/-- A search for the order of an id, as long as its status is given in one of two ways. -/
def orderQuery (id : Scalar) (status words : String) : Query :=
  { Query.all ordersByStatus with
    id := some id
    filter := some (.or [.equals "status" (.text status), .like "status" words .equalTo true]) }

theorem compile_of_exchanged_orderQuery :
    let q := orderQuery (.integer 7) "NEW" "In Stock"
    let r := orderQuery (.text "A-7 OR *") "*" "sold  OUT"
    q.Exchanged r ∧
      ∃ j k, q.compile = .ok j ∧ r.compile = .ok k ∧ j.clausesBlanked = k.clausesBlanked := by
  intro q r
  have hid : (Scalar.integer 7).Exchanged (.text "A-7 OR *") := ⟨rfl, nofun, nofun⟩
  have hstatus : (Scalar.text "NEW").Exchanged (.text "*") := ⟨rfl, nofun, nofun⟩
  have hwords : max 1 (Text.words (Text.lowercase "In Stock")).length =
      max 1 (Text.words (Text.lowercase "sold  OUT")).length := by decide +kernel
  have hfilter := Filter.Exchanged.or (.cons (.equals "status" hstatus)
    (.cons (.like "status" .equalTo true fun _ _ => hwords) .nil))
  have h : q.Exchanged r := ⟨rfl, .some hid, .some hfilter, rfl, rfl, rfl, rfl⟩
  refine ⟨h, (compile_of_exchanged h).resolve_left ?_⟩
  rintro ⟨e, he, -⟩
  cases he

end Query

end DocumentSearch
