import DocumentSearch.Text.Path

/-!
# Document mappings

A mapping says what properties the documents of one type have: the path of each, its kind, and the
field in which its exact text is indexed when that is another one. A property declared again takes
the place it had.

A list makes everything at and below its path many-valued: each element of the list is searched on
its own. The outermost list on the way to a property is its many root.
-/

namespace DocumentSearch

inductive PropertyKind where
  | string
  | uuid
  | enumeration
  | boolean
  | integer
  | long
  | double
  | binary
  | date
  | dateTime
  | list
  | object
  | root
  deriving DecidableEq, Repr

namespace PropertyKind

/-- The engine's type for a property of this kind. -/
def engineType : PropertyKind → String
  | .string | .uuid | .enumeration => "string"
  | .boolean => "boolean"
  | .integer => "integer"
  | .long => "long"
  | .double => "double"
  | .binary => "binary"
  | .date | .dateTime => "date"
  | .list => "nested"
  | .object => "object"
  | .root => "root"

/-- Whether patterns can be matched against it. -/
def isText : PropertyKind → Bool
  | .string | .uuid | .enumeration => true
  | _ => false

/-- Whether other properties stand below it. -/
def isContainer : PropertyKind → Bool
  | .list | .object | .root => true
  | _ => false

/-- The name in which errors speak of it. -/
def name : PropertyKind → String
  | .string => "String"
  | .uuid => "Uuid"
  | .enumeration => "Enum"
  | .boolean => "Boolean"
  | .integer => "Integer"
  | .long => "Long"
  | .double => "Double"
  | .binary => "Binary"
  | .date => "Date"
  | .dateTime => "DateTime"
  | .list => "List"
  | .object => "Object"
  | .root => "Root"

def all : List PropertyKind :=
  [.string, .uuid, .enumeration, .boolean, .integer, .long, .double, .binary, .date, .dateTime,
    .list, .object, .root]

def ofName? (name : String) : Option PropertyKind := all.find? fun k => k.name = name

end PropertyKind

structure Property where
  name : String
  kind : PropertyKind
  /-- The field with the exact text, when it is not the property's own. -/
  raw : Option String
  deriving DecidableEq, Repr

structure Mapping where
  index : String
  docType : String
  properties : List Property
  deriving DecidableEq, Repr

/-- Where a filter finds a property. -/
structure FieldTarget where
  /-- The field for exact comparison, ranges and sorting. -/
  rawField : String
  manyRoot : Option String
  kind : PropertyKind
  deriving DecidableEq, Repr

def FieldTarget.containsMany (t : FieldTarget) : Bool := t.manyRoot.isSome

namespace Mapping

def empty (index docType : String) : Mapping := ⟨index, docType, []⟩

/-- Puts a declaration where its property was declared before, or else last. -/
def declareIn (p : Property) : List Property → List Property
  | [] => [p]
  | q :: rest => if q.name = p.name then p :: rest else q :: declareIn p rest

def declare (m : Mapping) (p : Property) : Mapping :=
  { m with properties := declareIn p m.properties }

/-- Declares a property that is its own raw field. -/
def property (m : Mapping) (name : String) (kind : PropertyKind) : Mapping :=
  m.declare ⟨name, kind, none⟩

/-- Declares a text whose exact form is in the field `raw`. -/
def rawText (m : Mapping) (name raw : String) : Mapping := m.declare ⟨name, .string, some raw⟩

def get? (m : Mapping) (name : String) : Option Property :=
  m.properties.find? fun p => p.name = name

/-- The field for exact comparison; a path that is not mapped stands for itself. -/
def rawField (m : Mapping) (name : String) : String := ((m.get? name).bind (·.raw)).getD name

def isList (m : Mapping) (path : String) : Bool :=
  match m.get? path with
  | some p => p.kind = .list
  | none => false

/-- The outermost list on the way to `path`, itself included. -/
def manyRoot (m : Mapping) (path : String) : Option String := (Path.ancestors path).find? m.isList

/-- Where a filter finds the property at `path`, if there is one. -/
def target? (m : Mapping) (path : String) : Option FieldTarget :=
  (m.get? path).map fun p => ⟨p.raw.getD path, m.manyRoot path, p.kind⟩

/-- Whether `path` may have several values. One that is not mapped may. -/
def containsMany (m : Mapping) (path : String) : Bool :=
  match m.target? path with
  | some t => t.containsMany
  | none => true

theorem containsMany_eq (m : Mapping) (path : String) :
    m.containsMany path = ((m.get? path).isNone || (m.manyRoot path).isSome) := by
  cases h : m.get? path <;> simp [containsMany, target?, h, FieldTarget.containsMany]

theorem containsMany_eq_false_iff {m : Mapping} {path : String} :
    m.containsMany path = false ↔ (m.get? path).isSome ∧ m.manyRoot path = none := by
  simp [containsMany_eq]

end Mapping

end DocumentSearch
