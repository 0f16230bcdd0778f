import DocumentSearch.Filter.Basic

/-!
# Clauses

What a filter becomes in a query document. Leaf clauses test one field, or the id; a `bool` clause
holds clauses of one occurrence; a `nested` clause asks for one element of a list that satisfies
its filter by itself.
-/

namespace DocumentSearch

inductive Occur where
  | must
  | should
  | mustNot
  deriving DecidableEq, Repr

def Occur.name : Occur → String
  | .must => "must"
  | .should => "should"
  | .mustNot => "must_not"

inductive LeafClause where
  | term (field : String) (value : Json)
  | terms (field : String) (values : List Json)
  | range (field : String) (bounds : List (RangeOp × Json))
  | exists (field : String)
  | fullText (field text : String)
  | wildcard (field pattern : String)
  | startsWith (field text : String)
  | ids (values : List Json)

inductive Clause where
  | leaf (l : LeafClause)
  | bool (occur : Occur) (clauses : List Clause)
  | nested (path : String) (filter : Clause)

/-- A clause of kind `kind` that says `value` of one field. -/
def LeafClause.onField (kind field : String) (value : Json) : Json :=
  .ofMembers [(kind, .ofMembers [(field, value)])]

def LeafClause.toJson : LeafClause → Json
  | .term field value => onField "term" field value
  | .terms field values => onField "terms" field (.array values)
  | .range field bounds =>
    onField "range" field (.ofMembers (bounds.map fun b => (b.1.engineName, b.2)))
  | .exists field => onField "exists" "field" (.string field)
  | .fullText field text => onField "match" field (.string text)
  | .wildcard field pattern => onField "wildcard" field (.string pattern)
  | .startsWith field text => onField "prefix" field (.string text)
  | .ids values => onField "ids" "values" (.array values)

namespace Clause

mutual

def toJson : Clause → Json
  | .leaf l => l.toJson
  | .bool occur clauses =>
    .ofMembers [("bool", .ofMembers [(occur.name, .array (jsonsOf clauses))])]
  | .nested path filter =>
    .ofMembers [("nested", .ofMembers [("path", .string path), ("filter", filter.toJson)])]

def jsonsOf : List Clause → List Json
  | [] => []
  | c :: rest => c.toJson :: jsonsOf rest

end

end Clause

end DocumentSearch
