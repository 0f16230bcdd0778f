import DocumentSearch.Proofs.Query.Selection

/-!
# What stands in the lists of a query document

The paths that a query document lists are the requested ones and no others. A fetch is served from
the source when it wants everything below its path, or when that path may have several values, and
otherwise by fields, like the properties of the document itself. Each list holds what goes to it
once, in the order of the first requests, and a list without paths is not written.
-/

namespace DocumentSearch

/-! ### Requests -/

/-- The paths that a fetch requests. -/
def Fetch.requested (f : Fetch) : List String :=
  match f.properties with
  | .all => [Path.child f.path "*"]
  | .only names => names.map (Path.child f.path)

/-- All requested paths: those of the fetches first, then the properties of the document. -/
def Selection.requested (s : Selection) : List String := s.fetches.flatMap Fetch.requested ++ s.root

/-- A fetch is served from the source if it wants everything, or if its path is not mapped or has a
list on the way. -/
def Fetch.fromSource (m : Mapping) (f : Fetch) : Bool :=
  f.properties = .all || (m.get? f.path).isNone || (m.manyRoot f.path).isSome

/-- The requests that are served from the source, in their order. -/
def Selection.sourceRequests (m : Mapping) (s : Selection) : List String :=
  (s.fetches.filter (Fetch.fromSource m)).flatMap Fetch.requested

/-- The requests that are served by fields, in their order. -/
def Selection.fieldRequests (m : Mapping) (s : Selection) : List String :=
  (s.fetches.filter fun f => !f.fromSource m).flatMap Fetch.requested ++ s.root

theorem Fetch.asks_eq_map (m : Mapping) (f : Fetch) :
    f.asks m = f.requested.map (f.fromSource m, ·) := by
  obtain ⟨path, properties⟩ := f
  cases properties with
  | all => rfl
  | only names =>
    have hmany : m.containsMany path = Fetch.fromSource m ⟨path, .only names⟩ :=
      m.containsMany_eq path
    simp only [asks, requested, List.map_map, hmany]
    rfl

/-- The requests that go one way are those of the fetches that do. -/
theorem filter_flatMap_asks (m : Mapping) (fetches : List Fetch) (fromSource : Bool) :
    ((fetches.flatMap (Fetch.asks m)).filter fun a => a.1 = fromSource).map Prod.snd =
      (fetches.filter fun f => f.fromSource m = fromSource).flatMap Fetch.requested := by
  induction fetches with
  | nil => rfl
  | cons f rest ih =>
    rw [List.flatMap_cons, List.filter_append, List.map_append, ih, Fetch.asks_eq_map]
    by_cases h : f.fromSource m = fromSource
    · simp [h, List.filter_map, Function.comp_def]
    · simp [h, List.filter_map, Function.comp_def]

theorem Selection.mem_requested_iff {m : Mapping} {s : Selection} {path : String} :
    path ∈ s.requested ↔ path ∈ s.sourceRequests m ∨ path ∈ s.fieldRequests m := by
  simp only [requested, sourceRequests, fieldRequests, List.mem_append, List.mem_flatMap,
    List.mem_filter, Bool.not_eq_true']
  constructor
  · rintro (⟨f, hf, hpath⟩ | hroot)
    · cases hsource : f.fromSource m with
      | true => exact .inl ⟨f, ⟨hf, hsource⟩, hpath⟩
      | false => exact .inr (.inl ⟨f, ⟨hf, hsource⟩, hpath⟩)
    · exact .inr (.inr hroot)
  · rintro (⟨f, ⟨hf, -⟩, hpath⟩ | ⟨f, ⟨hf, -⟩, hpath⟩ | hroot)
    · exact .inl ⟨f, hf, hpath⟩
    · exact .inl ⟨f, hf, hpath⟩
    · exact .inr hroot

namespace SelectedPaths

theorem listsOnce_includes (m : Mapping) (s : Selection) :
    ListsOnce (s.sourceRequests m) (ofSelection m s).includes := by
  have h := listsOnce_ofSelection m s true
  rw [Selection.asks, List.filter_append, List.map_append, filter_flatMap_asks] at h
  simpa [listed, Selection.sourceRequests, List.filter_map, Function.comp_def] using h

theorem listsOnce_fields (m : Mapping) (s : Selection) :
    ListsOnce (s.fieldRequests m) (ofSelection m s).fields := by
  have h := listsOnce_ofSelection m s false
  rw [Selection.asks, List.filter_append, List.map_append, filter_flatMap_asks] at h
  simpa [listed, Selection.fieldRequests, List.filter_map, Function.comp_def] using h

end SelectedPaths

/-! ### Lists -/

namespace Query

/-- A query document lists the requested paths and no others: in `_source` those served from the
source, in `fields` the others, each path once in a list and in the order in which it was requested
there first. A list without paths is not written. Without a selection there is neither, and whole
documents are read. -/
theorem selection_listed {q : Query} {j : Json} (hcompiled : q.compile = .ok j) :
    ∃ includes fields : List String,
      j.get? "_source" =
        (if includes = [] then none else some (.ofMembers [("include", .strings includes)])) ∧
      j.get? "fields" = (if fields = [] then none else some (.strings fields)) ∧
      (∀ path, path ∈ includes ∨ path ∈ fields ↔ path ∈ q.selection.requested) ∧
      ListsOnce (q.selection.sourceRequests q.recordType.mapping) includes ∧
      ListsOnce (q.selection.fieldRequests q.recordType.mapping) fields ∧
      (q.selection = ⟨[], []⟩ → j.get? "_source" = none ∧ j.get? "fields" = none ∧
        Materializer.forQuery q = Materializer.source q.recordType) := by
  have hincludes := SelectedPaths.listsOnce_includes q.recordType.mapping q.selection
  have hfields := SelectedPaths.listsOnce_fields q.recordType.mapping q.selection
  obtain ⟨hwritten, hsource⟩ := get?_of_compile hcompiled
  refine ⟨_, _, hsource, hwritten, fun path => ?_, hincludes, hfields, fun hnone => ?_⟩
  · rw [hincludes.mem_iff, hfields.mem_iff, Selection.mem_requested_iff]
  · rw [hsource, hwritten, Materializer.forQuery, selectsFields, hnone]
    exact ⟨rfl, rfl, rfl⟩

/-! ### A path requested both ways -/

/-- Quantities are requested twice below a list, and once more as if they were the order's own. -/
def quantities : Query :=
  let mapping := (((Mapping.empty "order" "order").property "customer" .object).property
    "lines" .list).property "lines.qty" .long
  { Query.all ⟨"order", mapping, "id"⟩ with
    selection := ⟨["status", "lines.qty", "status"],
      [⟨"customer", .all⟩, ⟨"lines", .only ["qty", "qty"]⟩, ⟨"customer", .only ["name"]⟩,
        ⟨"supplier", .only ["city"]⟩]⟩ }

theorem selection_listed_quantities :
    ∃ j includes fields, quantities.compile = .ok j ∧
      j.get? "_source" = some (.ofMembers [("include", .strings includes)]) ∧
      j.get? "fields" = some (.strings fields) ∧
      ListsOnce ["customer.*", "lines.qty", "lines.qty", "supplier.city"] includes ∧
      ListsOnce ["customer.name", "status", "lines.qty", "status"] fields := by
  have hcompiled : quantities.compile = .ok _ := rfl
  obtain ⟨includes, fields, hsource, hfields, -, hincluded, hlisted, -⟩ :=
    selection_listed hcompiled
  rw [show quantities.selection.sourceRequests quantities.recordType.mapping =
    ["customer.*", "lines.qty", "lines.qty", "supplier.city"] by decide +kernel] at hincluded
  rw [show quantities.selection.fieldRequests quantities.recordType.mapping =
    ["customer.name", "status", "lines.qty", "status"] by decide +kernel] at hlisted
  rw [if_neg (List.ne_nil_of_mem ((hincluded.mem_iff "lines.qty").mpr (by simp)))] at hsource
  rw [if_neg (List.ne_nil_of_mem ((hlisted.mem_iff "lines.qty").mpr (by simp)))] at hfields
  exact ⟨_, includes, fields, hcompiled, hsource, hfields, hincluded, hlisted⟩

end Query

end DocumentSearch
