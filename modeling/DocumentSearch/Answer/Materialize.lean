import DocumentSearch.Answer.ResultPage
import DocumentSearch.Query.Basic

/-!
# From hits to records

A page is read hit by hit, and as a whole: when one hit cannot be read, none of the page is handed
out. Whole documents come from the source. Selected properties come from the fields of the hit, on
top of the source when there is one; of those, lists are left alone, because a field shows the
values of all elements in one row.
-/

namespace DocumentSearch

abbrev Materializer (α : Type) := Hit → Except StoreError α

/-- One page of records. -/
structure SearchPage (α : Type) where
  total : Nat
  cursor : Option String
  records : List α

namespace SearchPage

variable {α : Type}

/-- Whether the page holds everything there is. -/
def allHitsRead (p : SearchPage α) : Bool := p.total = 0 || p.records.length = p.total

def zeroHits (p : SearchPage α) : Bool := p.records.isEmpty

end SearchPage

/-- Reads hits one after the other; the first that cannot be read decides. -/
def readHits {α : Type} (read : Materializer α) : List Hit → Except StoreError (List α)
  | [] => .ok []
  | h :: rest =>
    match read h with
    | .error e => .error e
    | .ok r =>
      match readHits read rest with
      | .error e => .error e
      | .ok rs => .ok (r :: rs)

def ResultPage.materialize {α : Type} (read : Materializer α) (p : ResultPage) :
    Except StoreError (SearchPage α) :=
  match readHits read p.hits with
  | .error e => .error e
  | .ok records => .ok ⟨p.total, p.cursor, records⟩

/-- Reads the page in the body of an answer and its records. -/
def SearchPage.parse {α : Type} (read : Materializer α) (body : List UInt8) :
    Except StoreError (SearchPage α) :=
  match ResultPage.parse body with
  | .error e => .error e
  | .ok page => page.materialize read

namespace Materializer

/-- The document of a hit, under the id of the hit; without a source it is blank. -/
def source (t : RecordType) : Materializer Document := fun hit =>
  match hit.source with
  | none => .ok ⟨some hit.id, []⟩
  | some s =>
    match t.readSource (Utf8.symbols s) with
    | .error e => .error e
    | .ok d => .ok { d with id := some hit.id }

/-- The one value of a field: what is no array, or the only element of one. -/
def singleValue? : Json → Option Json
  | .array [v] => some v
  | .array _ => none
  | v => some v

/-- Sets each field that has one value, in the order of their names. -/
def applyFields (m : Mapping) (d : Document) (fields : List (String × Json)) : Document :=
  fields.foldl (fun d f =>
    if m.containsMany f.1 then d
    else
      match singleValue? f.2 with
      | some v => d.set f.1 v
      | none => d) d

def fields (t : RecordType) : Materializer Document := fun hit =>
  match source t hit with
  | .error e => .error e
  | .ok d => .ok (applyFields t.mapping d hit.fields)

/-- How the records of a request are read. -/
def forQuery (q : Query) : Materializer Document :=
  if q.selectsFields then fields q.recordType else source q.recordType

end Materializer

/-- The source of a hit as it was sent. -/
structure RawSource where
  id : String
  source : String
  deriving DecidableEq, Repr

def RawSource.read : Materializer RawSource := fun hit =>
  match hit.source with
  | some s => .ok ⟨hit.id, s⟩
  | none => .error (.malformed (.noSource hit.id))

end DocumentSearch
