import DocumentSearch.Document
import DocumentSearch.Filter.Basic

/-!
# Search requests

What is asked of the documents of one type: which of them, in what order, which rows of the answer,
and which of their properties.
-/

namespace DocumentSearch

structure SortKey where
  path : String
  ascending : Bool
  deriving DecidableEq, Repr

/-- What is wanted of the documents that stand at a path. -/
inductive FetchProperties where
  | all
  | only (names : List String)
  deriving DecidableEq, Repr

structure Fetch where
  path : String
  properties : FetchProperties
  deriving DecidableEq, Repr

/-- The properties that are wanted; the empty selection stands for whole documents. -/
structure Selection where
  root : List String
  fetches : List Fetch
  deriving DecidableEq, Repr

def Selection.isEmpty (s : Selection) : Bool := s.root.isEmpty && s.fetches.isEmpty

structure Query where
  recordType : RecordType
  id : Option Scalar
  filter : Option Filter
  order : List SortKey
  /-- The first row of the answer, counted from zero. -/
  firstRow : Nat
  /-- How many rows at most; zero sets no limit. -/
  maxRows : Nat
  selection : Selection

namespace Query

def all (t : RecordType) : Query := ⟨t, none, none, [], 0, 0, ⟨[], []⟩⟩

/-- Whether properties are selected, so that whole documents are not asked for. -/
def selectsFields (q : Query) : Bool := !q.selection.isEmpty

end Query

end DocumentSearch
