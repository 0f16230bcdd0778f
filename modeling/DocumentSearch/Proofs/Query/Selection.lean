import DocumentSearch.Answer.Materialize
import DocumentSearch.Proofs.Filter.Condition
import DocumentSearch.Proofs.Json.Members
import DocumentSearch.Query.Compile

/-!
# What a selection asks for, and what is read of it

A property can be asked for as a field or from the source. When the answer is read, a field is left
alone if its path may have several values. Who reads looks at the path of the property; who asks
looks at the path of the fetch, and at nothing for a property of the document itself. The two agree
for exactly those selections whose fields, one by one, have single-valued paths.
-/

namespace DocumentSearch

/-! ### Asking -/

/-- A list holds what was requested, each path once, in the order in which the paths were requested
first. -/
structure ListsOnce (requests listed : List String) : Prop where
  mem_iff : ∀ path, path ∈ listed ↔ path ∈ requests
  nodup : listed.Nodup
  ordered : listed.Pairwise fun a b => requests.idxOf a < requests.idxOf b

/-- One more request comes after all others, so what it adds comes last. -/
theorem ListsOnce.push {requests listed : List String} (h : ListsOnce requests listed)
    (path : String) : ListsOnce (requests ++ [path]) (pushNew listed path) := by
  -- What is listed was requested before, so its first request is where it was.
  have hbefore : ∀ a ∈ listed, (requests ++ [path]).idxOf a = requests.idxOf a := fun a ha => by
    rw [List.idxOf_append, if_pos ((h.mem_iff a).mp ha)]
  have hordered : listed.Pairwise fun a b =>
      (requests ++ [path]).idxOf a < (requests ++ [path]).idxOf b := by
    refine h.ordered.imp_of_mem fun {a b} ha hb hlt => ?_
    rw [hbefore a ha, hbefore b hb]
    exact hlt
  rw [pushNew]
  split
  next hmem =>
    refine ⟨fun x => ?_, h.nodup, hordered⟩
    rw [h.mem_iff, List.mem_append, List.mem_singleton]
    exact ⟨.inl, fun hx => hx.elim id fun heq => heq ▸ (h.mem_iff path).mp hmem⟩
  next hnew =>
    refine ⟨fun x => ?_, ?_, ?_⟩
    · rw [List.mem_append, List.mem_append, h.mem_iff]
    · refine List.nodup_append.mpr ⟨h.nodup, List.pairwise_singleton _ _, fun a ha b hb => ?_⟩
      rw [List.mem_singleton.mp hb]
      exact fun heq => hnew (heq ▸ ha)
    · refine List.pairwise_append.mpr ⟨hordered, List.pairwise_singleton _ _, fun a ha b hb => ?_⟩
      have hlast : path ∉ requests := fun hmem => hnew ((h.mem_iff path).mpr hmem)
      rw [List.mem_singleton.mp hb, hbefore a ha, List.idxOf_append, if_neg hlast]
      have hlt := List.idxOf_lt_length_of_mem ((h.mem_iff a).mp ha)
      omega

theorem listsOnce_foldl (requests : List String) :
    ListsOnce requests (requests.foldl pushNew []) := by
  induction requests using List.reverseRecOn with
  | nil => exact ⟨fun _ => Iff.rfl, List.nodup_nil, List.Pairwise.nil⟩
  | append_singleton requests path ih =>
    rw [List.foldl_append]
    exact ih.push path

/-- The properties that a fetch names, each with its full path. -/
def Fetch.children (f : Fetch) : List String :=
  match f.properties with
  | .all => []
  | .only names => names.map (Path.child f.path)

/-- What a fetch asks for: the paths, each with whether it is taken from the source. -/
def Fetch.asks (m : Mapping) (f : Fetch) : List (Bool × String) :=
  match f.properties with
  | .all => [(true, Path.child f.path "*")]
  | .only names => names.map fun name => (m.containsMany f.path, Path.child f.path name)

def Selection.asks (m : Mapping) (s : Selection) : List (Bool × String) :=
  s.fetches.flatMap (Fetch.asks m) ++ s.root.map fun path => (false, path)

theorem Fetch.mem_asks {m : Mapping} {f : Fetch} {fromSource : Bool} {path : String} :
    (fromSource, path) ∈ f.asks m ↔
      (f.properties = .all ∧ fromSource = true ∧ path = Path.child f.path "*") ∨
        (m.containsMany f.path = fromSource ∧ path ∈ f.children) := by
  obtain ⟨fetchPath, properties⟩ := f
  cases properties with
  | all => simp [asks, children]
  | only names =>
    simp only [asks, children, List.mem_map, Prod.mk.injEq, reduceCtorEq, false_and, false_or]
    constructor
    · rintro ⟨name, hname, hmany, rfl⟩
      exact ⟨hmany, name, hname, rfl⟩
    · rintro ⟨hmany, name, hname, rfl⟩
      exact ⟨name, hname, hmany, rfl⟩

namespace SelectedPaths

/-- The paths taken from the source, or those taken as fields. -/
def listed (p : SelectedPaths) (fromSource : Bool) : List String :=
  if fromSource then p.includes else p.fields

/-- Each list is made of the requests that go to it. -/
theorem listed_foldl (asks : List (Bool × String)) (p : SelectedPaths) (fromSource : Bool) :
    (asks.foldl (fun p a => p.add a.1 a.2) p).listed fromSource =
      ((asks.filter fun a => a.1 = fromSource).map Prod.snd).foldl pushNew
        (p.listed fromSource) := by
  induction asks generalizing p with
  | nil => rfl
  | cons a rest ih =>
    obtain ⟨many, path⟩ := a
    rw [List.foldl_cons, ih]
    cases many <;> cases fromSource <;> rfl

theorem addFetch_eq_foldl (m : Mapping) (p : SelectedPaths) (f : Fetch) :
    addFetch m p f = (f.asks m).foldl (fun p a => p.add a.1 a.2) p := by
  obtain ⟨path, properties⟩ := f
  cases properties with
  | all => rfl
  | only names => simp only [addFetch, Fetch.asks, List.foldl_map]

theorem ofSelection_eq_foldl (m : Mapping) (s : Selection) :
    ofSelection m s = (s.asks m).foldl (fun p a => p.add a.1 a.2) ⟨[], []⟩ := by
  rw [ofSelection, Selection.asks, List.foldl_append, List.foldl_flatMap, List.foldl_map]
  congr 2
  funext p f
  exact addFetch_eq_foldl m p f

theorem listsOnce_ofSelection (m : Mapping) (s : Selection) (fromSource : Bool) :
    ListsOnce (((s.asks m).filter fun a => a.1 = fromSource).map Prod.snd)
      ((ofSelection m s).listed fromSource) := by
  rw [ofSelection_eq_foldl, listed_foldl]
  cases fromSource <;> exact listsOnce_foldl _

theorem mem_listed_ofSelection {m : Mapping} {s : Selection} {path : String} (fromSource : Bool) :
    path ∈ (ofSelection m s).listed fromSource ↔ (fromSource, path) ∈ s.asks m := by
  rw [(listsOnce_ofSelection m s fromSource).mem_iff]
  simp

end SelectedPaths

/-- The root properties are fields, and so are those of fetches whose paths have no lists. -/
theorem Selection.mem_asks_field {m : Mapping} {s : Selection} {path : String} :
    (false, path) ∈ s.asks m ↔
      path ∈ s.root ∨ ∃ f ∈ s.fetches, m.containsMany f.path = false ∧ path ∈ f.children := by
  simp [asks, Fetch.mem_asks, or_comm]

theorem Selection.mem_asks_source {m : Mapping} {s : Selection} {path : String} :
    (true, path) ∈ s.asks m ↔
      ∃ f ∈ s.fetches, (f.properties = .all ∧ path = Path.child f.path "*") ∨
        (m.containsMany f.path = true ∧ path ∈ f.children) := by
  simp [asks, Fetch.mem_asks]

/-! ### The query document -/

namespace Json

def texts : Json → List String
  | .array items => items.filterMap fun
    | .string s => some s
    | _ => none
  | _ => []

theorem texts_strings (items : List String) : (strings items).texts = items := by
  simp [strings, texts, List.filterMap_map]

def requestedFields (j : Json) : List String := ((j.get? "fields").map texts).getD []

def requestedSource (j : Json) : List String :=
  (((j.get? "_source").bind fun s => s.get? "include").map texts).getD []

end Json

/-- A list of paths is written if it has one, whatever is written around it. -/
theorem SelectedPaths.get?_framed (p : SelectedPaths) {before others : List (String × Json)}
    (hbefore : ∀ entry ∈ before, entry.1 ≠ "fields" ∧ entry.1 ≠ "_source")
    (hothers : ∀ entry ∈ others, entry.1 ≠ "fields" ∧ entry.1 ≠ "_source") :
    (Json.ofMembers (before ++ p.toEntries ++ others)).get? "fields" =
        (if p.fields = [] then none else some (.strings p.fields)) ∧
      (Json.ofMembers (before ++ p.toEntries ++ others)).get? "_source" =
        if p.includes = [] then none
        else some (.ofMembers [("include", .strings p.includes)]) := by
  have hfields := Members.find?_ofList_framed p.toEntries
    (fun entry h => (hbefore entry h).1) fun entry h => (hothers entry h).1
  have hsource := Members.find?_ofList_framed p.toEntries
    (fun entry h => (hbefore entry h).2) fun entry h => (hothers entry h).2
  simp only [Json.ofMembers, Json.get?, hfields, hsource]
  by_cases hincludes : p.includes = [] <;> by_cases hlist : p.fields = []
  all_goals simp [toEntries, hincludes, hlist, Members.find?_ofList_cons, Members.find?_ofList_nil,
    Json.ofMembers]

namespace Query

variable {q : Query} {j : Json}

theorem get?_of_compile (hcompiled : q.compile = .ok j) :
    let paths := SelectedPaths.ofSelection q.recordType.mapping q.selection
    j.get? "fields" = (if paths.fields = [] then none else some (.strings paths.fields)) ∧
      j.get? "_source" =
        if paths.includes = [] then none
        else some (.ofMembers [("include", .strings paths.includes)]) := by
  obtain ⟨clause, -, rfl⟩ := ok_of_bind_ok hcompiled
  rw [List.append_assoc _ _ (ite _ _ _)]
  apply SelectedPaths.get?_framed
  · split <;> split <;> simp
  · split <;> simp

/-- A query document asks for the selected paths and for no others. -/
theorem requested_of_compile (hcompiled : q.compile = .ok j) :
    j.requestedFields = (SelectedPaths.ofSelection q.recordType.mapping q.selection).fields ∧
      j.requestedSource =
        (SelectedPaths.ofSelection q.recordType.mapping q.selection).includes := by
  obtain ⟨hfields, hsource⟩ := get?_of_compile hcompiled
  rw [Json.requestedFields, Json.requestedSource, hfields, hsource]
  constructor
  · split
    next hnone => rw [hnone]; rfl
    next => exact Json.texts_strings _
  · split
    next hnone => rw [hnone]; rfl
    next => exact Json.texts_strings _

end Query

/-! ### Reading -/

namespace Materializer

/-- Fields whose paths may have several values make no difference. -/
theorem applyFields_filter (m : Mapping) (d : Document) (fields : List (String × Json)) :
    applyFields m d (fields.filter fun f => !m.containsMany f.1) = applyFields m d fields := by
  unfold applyFields
  rw [List.foldl_filter]
  congr 1
  funext d f
  by_cases hmany : m.containsMany f.1 = true <;> simp [hmany]

theorem forQuery_filter (q : Query) (hit : Hit) :
    forQuery q
      { hit with fields := hit.fields.filter fun f => !q.recordType.mapping.containsMany f.1 } =
        forQuery q hit := by
  unfold forQuery
  split
  · simp only [fields, source, applyFields_filter]
  · rfl

/-- A field with one value sets it, unless its path may have several. -/
theorem applyFields_cons_single (m : Mapping) (d : Document) (path : String) (v : Json)
    (rest : List (String × Json)) :
    applyFields m d ((path, .array [v]) :: rest) =
      applyFields m (if m.containsMany path then d else d.set path v) rest :=
  rfl

end Materializer

/-! ### Agreement -/

/-- The properties that a selection names, each with its full path. -/
def Selection.named (s : Selection) : List String := s.fetches.flatMap Fetch.children ++ s.root

namespace Query

variable {q : Query} {j : Json}

/-- Whether a query document asks for each property in the form in which it is read: for one value
as a field, and otherwise from the source. -/
def AsksAsRead (q : Query) (j : Json) : Prop :=
  (∀ path ∈ j.requestedFields, q.recordType.mapping.containsMany path = false) ∧
    ∀ path ∈ q.selection.named, q.recordType.mapping.containsMany path = true →
      path ∈ j.requestedSource

theorem mem_requestedFields (hcompiled : q.compile = .ok j) {path : String} :
    path ∈ j.requestedFields ↔ path ∈ q.selection.root ∨
      ∃ f ∈ q.selection.fetches,
        q.recordType.mapping.containsMany f.path = false ∧ path ∈ f.children := by
  rw [(requested_of_compile hcompiled).1, ← Selection.mem_asks_field]
  exact SelectedPaths.mem_listed_ofSelection false

theorem mem_requestedSource (hcompiled : q.compile = .ok j) {path : String} :
    path ∈ j.requestedSource ↔ ∃ f ∈ q.selection.fetches,
      (f.properties = .all ∧ path = Path.child f.path "*") ∨
        (q.recordType.mapping.containsMany f.path = true ∧ path ∈ f.children) := by
  rw [(requested_of_compile hcompiled).2, ← Selection.mem_asks_source]
  exact SelectedPaths.mem_listed_ofSelection true

/-- The two agree if no property of the document itself may have several values, and none that is
fetched from a path that has one. -/
theorem asksAsRead_of_single (hcompiled : q.compile = .ok j)
    (hroot : ∀ path ∈ q.selection.root, q.recordType.mapping.containsMany path = false)
    (hfetched : ∀ f ∈ q.selection.fetches, q.recordType.mapping.containsMany f.path = false →
      ∀ path ∈ f.children, q.recordType.mapping.containsMany path = false) :
    q.AsksAsRead j := by
  constructor
  · intro path hpath
    rcases (mem_requestedFields hcompiled).mp hpath with h | ⟨f, hf, hone, hchild⟩
    · exact hroot path h
    · exact hfetched f hf hone path hchild
  · intro path hpath hmany
    -- A path with several values that is named anywhere is named by a fetch from a list.
    rcases List.mem_append.mp hpath with h | h
    · obtain ⟨f, hf, hchild⟩ := List.mem_flatMap.mp h
      rw [mem_requestedSource hcompiled]
      refine ⟨f, hf, .inr ⟨?_, hchild⟩⟩
      cases hone : q.recordType.mapping.containsMany f.path with
      | true => rfl
      | false =>
        rw [hfetched f hf hone path hchild] at hmany
        cases hmany
    · rw [hroot path h] at hmany
      cases hmany

/-- What a query document asks for as a field and what from the source, and when this is as it is
read. Of the fields that come back, those whose paths may have several values are thrown away. -/
theorem asksAsRead_iff (hcompiled : q.compile = .ok j) :
    (∀ path, path ∈ j.requestedFields ↔ path ∈ q.selection.root ∨
      ∃ f ∈ q.selection.fetches,
        q.recordType.mapping.containsMany f.path = false ∧ path ∈ f.children) ∧
    (∀ path, path ∈ j.requestedSource ↔ ∃ f ∈ q.selection.fetches,
      (f.properties = .all ∧ path = Path.child f.path "*") ∨
        (q.recordType.mapping.containsMany f.path = true ∧ path ∈ f.children)) ∧
    (q.AsksAsRead j ↔
      (∀ path ∈ q.selection.root, q.recordType.mapping.containsMany path = false) ∧
        ∀ f ∈ q.selection.fetches, q.recordType.mapping.containsMany f.path = false →
          ∀ path ∈ f.children, q.recordType.mapping.containsMany path = false) ∧
    (∀ hit, Materializer.forQuery q hit = Materializer.forQuery q
      { hit with fields := hit.fields.filter fun f => !q.recordType.mapping.containsMany f.1 }) ∧
    ∀ d path v rest, Materializer.applyFields q.recordType.mapping d ((path, .array [v]) :: rest) =
      Materializer.applyFields q.recordType.mapping
        (if q.recordType.mapping.containsMany path then d else d.set path v) rest := by
  refine ⟨fun _ => mem_requestedFields hcompiled, fun _ => mem_requestedSource hcompiled, ?_,
    fun hit => (Materializer.forQuery_filter q hit).symm,
    Materializer.applyFields_cons_single q.recordType.mapping⟩
  constructor
  · rintro ⟨hsingle, -⟩
    refine ⟨fun path hpath => ?_, fun f hf hone path hpath => ?_⟩
    · exact hsingle path ((mem_requestedFields hcompiled).mpr (.inl hpath))
    · exact hsingle path ((mem_requestedFields hcompiled).mpr (.inr ⟨f, hf, hone, hpath⟩))
  · rintro ⟨hroot, hfetched⟩
    exact asksAsRead_of_single hcompiled hroot hfetched

/-! ### A list inside an object -/

/-- The names of the tags of a customer: the customer is one object, the tags are a list in it. -/
def tagNames : Query :=
  let mapping := (((Mapping.empty "order" "order").property "customer" .object).property
    "customer.tags" .list).property "customer.tags.name" .string
  { Query.all ⟨"order", mapping, "id"⟩ with selection := ⟨[], [⟨"customer", .only ["tags.name"]⟩]⟩ }

/-- The names are asked for as a field, which is thrown away when it comes back. -/
theorem asksAsRead_iff_tagNames :
    ∃ j, tagNames.compile = .ok j ∧ "customer.tags.name" ∈ j.requestedFields ∧
      "customer.tags.name" ∉ j.requestedSource ∧
      tagNames.recordType.mapping.containsMany "customer.tags.name" = true ∧
      ¬tagNames.AsksAsRead j ∧
      ∀ v, Materializer.forQuery tagNames ⟨"1", none, none, [("customer.tags.name", v)]⟩ =
        Materializer.forQuery tagNames ⟨"1", none, none, []⟩ := by
  have hmany : tagNames.recordType.mapping.containsMany "customer.tags.name" = true := by
    decide +kernel
  have hone : tagNames.recordType.mapping.containsMany "customer" = false := by decide +kernel
  have hcompiled : tagNames.compile = .ok _ := rfl
  obtain ⟨hfields, hsource, hagree, hread, -⟩ := asksAsRead_iff hcompiled
  have hfetch : (⟨"customer", .only ["tags.name"]⟩ : Fetch) ∈ tagNames.selection.fetches :=
    List.mem_singleton.mpr rfl
  have hchild : "customer.tags.name" ∈ (⟨"customer", .only ["tags.name"]⟩ : Fetch).children := by
    decide +kernel
  refine ⟨_, hcompiled, (hfields _).mpr (.inr ⟨_, hfetch, hone, hchild⟩), ?_, hmany, ?_, ?_⟩
  · rw [hsource]
    rintro ⟨f, hf, h⟩
    obtain rfl := List.mem_singleton.mp hf
    rcases h with ⟨hall, -⟩ | ⟨hlist, -⟩
    · cases hall
    · rw [hone] at hlist
      cases hlist
  · rw [hagree]
    rintro ⟨-, hfetched⟩
    have hsingle := hfetched _ hfetch hone _ hchild
    rw [hmany] at hsingle
    cases hsingle
  · intro v
    rw [hread]
    simp [hmany]

end Query

end DocumentSearch
