import DocumentSearch.Filter.Compile
import DocumentSearch.Query.Basic

/-!
# Query documents

The document that a search request becomes. Properties that have one value come back as fields;
whatever stands in a list has to be taken from the source.
-/

namespace DocumentSearch

/-- Adds a text to a list that does not have it yet. -/
def pushNew (items : List String) (item : String) : List String :=
  if item ∈ items then items else items ++ [item]

/-- The paths that a request takes from the source, and those it takes as fields. -/
structure SelectedPaths where
  includes : List String
  fields : List String
  deriving DecidableEq, Repr

namespace SelectedPaths

def add (p : SelectedPaths) (many : Bool) (path : String) : SelectedPaths :=
  if many then { p with includes := pushNew p.includes path }
  else { p with fields := pushNew p.fields path }

/-- Adds what a fetch wants. A path that is not mapped may have several values. -/
def addFetch (m : Mapping) (p : SelectedPaths) (f : Fetch) : SelectedPaths :=
  match f.properties with
  | .all => p.add true (Path.child f.path "*")
  | .only names =>
    names.foldl (fun p name => p.add (m.containsMany f.path) (Path.child f.path name)) p

/-- What a selection wants: the fetches first, then the properties of the document itself. -/
def ofSelection (m : Mapping) (s : Selection) : SelectedPaths :=
  s.root.foldl (fun p path => p.add false path) (s.fetches.foldl (addFetch m) ⟨[], []⟩)

/-- The members of a query document that ask for the selected paths. -/
def toEntries (p : SelectedPaths) : List (String × Json) :=
  (if p.includes = [] then []
    else [("_source", .ofMembers [("include", .strings p.includes)])]) ++
  (if p.fields = [] then [] else [("fields", .strings p.fields)])

end SelectedPaths

namespace Query

/-- The part of a query document that says which documents are wanted. -/
def clauseJson (q : Query) : Except StoreError Json :=
  match q.id, q.filter with
  | none, none => .ok (.ofMembers [("match_all", .ofMembers [])])
  | id, filter => do
    let clause ← Filter.compile q.recordType id filter
    .ok (.ofMembers [("filtered", .ofMembers [("filter", clause.toJson)])])

/-- One key of the order, which sorts by exact text. -/
def sortJson (m : Mapping) (o : SortKey) : Json :=
  let direction := if o.ascending then "asc" else "desc"
  .ofMembers [(m.rawField o.path, .ofMembers [("order", .string direction)])]

/-- The query document of a request. -/
def compile (q : Query) : Except StoreError Json := do
  let m := q.recordType.mapping
  let clause ← q.clauseJson
  .ok (.ofMembers
    ((if 0 < q.firstRow then [("from", .ofNat q.firstRow)] else []) ++
     (if 0 < q.maxRows then [("size", .ofNat q.maxRows)] else []) ++
     (SelectedPaths.ofSelection m q.selection).toEntries ++
     [("query", clause)] ++
     (if q.order = [] then [] else [("sort", .array (q.order.map (sortJson m)))])))

end Query

end DocumentSearch
