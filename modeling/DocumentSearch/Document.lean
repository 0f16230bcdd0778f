import DocumentSearch.Error
import DocumentSearch.Json.Form
import DocumentSearch.Json.Writer
import DocumentSearch.Mapping.Basic

/-!
# Documents

A document is an object with an id. Its values are reached by dotted paths through objects; arrays
are values and have no paths into them. Setting a value makes the objects on the way, in place of
anything else that stands there.
-/

namespace DocumentSearch

open Json (Tree)

structure Document where
  id : Option String
  source : Members Json

namespace Document

def blank : Document := ⟨none, []⟩

/-- The value at the end of `segments` below `j`. -/
def descend (j : Json) : List String → Option Json
  | [] => some j
  | s :: rest =>
    match j.get? s with
    | some j => descend j rest
    | none => none

/-- The value at the end of `segments` in an object; no segments lead nowhere. -/
def getIn (source : Members Json) : List String → Option Json
  | [] => none
  | s :: rest =>
    match Members.find? source s with
    | some j => descend j rest
    | none => none

def get? (d : Document) (path : String) : Option Json := getIn d.source (Path.segments path)

/-- The members of an object; anything else gives way to an empty one. -/
def membersOf : Option Json → Members Json
  | some (.object members) => members
  | _ => []

/-- Puts `value` at the end of `segments` in an object. -/
def setIn (value : Json) : List String → Members Json → Members Json
  | [], source => source
  | [s], source => Members.insert s value source
  | s :: rest, source =>
    Members.insert s (.object (setIn value rest (membersOf (Members.find? source s)))) source

def set (d : Document) (path : String) (value : Json) : Document :=
  { d with source := setIn value (Path.segments path) d.source }

/-! ### Text form -/

def toTree (d : Document) : Tree :=
  .record [("id", match d.id with | some id => .quoted id | none => .atom .null),
    ("source", (Json.object d.source).toTree .compact 0)]

def ofTree? (depth : Nat) (t : Tree) : Option Document :=
  match t.inside? depth, t.fields? ["id", "source"] with
  | some depth, some [id, source] => do
    let id ← Json.optionalField none (Tree.orNull? Tree.string?) id
    let source ← Json.requiredField (Json.membersOfTree? depth) source
    some ⟨id, source⟩
  | _, _ => none

end Document

/-- A type of documents: its key, its mapping, and the property that holds the id. -/
structure RecordType where
  key : String
  mapping : Mapping
  idProperty : String

namespace RecordType

/-- The id that a source names: a text, or a number as it would be written. -/
def idOf (t : RecordType) (source : Members Json) : Option String :=
  match Members.find? source t.idProperty with
  | some (.string s) => some s
  | some (.number n) => some (Json.number n).write
  | _ => none

/-- Reads the source of a document. -/
def readSource (t : RecordType) (source : List Utf8.Symbol) : Except StoreError Document :=
  match Json.read? source with
  | none => .error (.malformed .sourceText)
  | some (.object members) => .ok ⟨t.idOf members, members⟩
  | some _ => .error (.malformed .sourceNotObject)

end RecordType

end DocumentSearch
