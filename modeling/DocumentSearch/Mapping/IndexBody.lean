import DocumentSearch.Json.Basic
import DocumentSearch.Mapping.Basic

/-!
# What an index is created with

The engine wants the properties of a mapping as a tree of segments. Each node carries the latest
declaration of its path, if it has one: a list becomes `nested`, everything else that has
properties below it becomes `object`, and a leaf has the engine's type and, for a text with a raw
field, a sub-field that is not analysed.
-/

namespace DocumentSearch

/-- A place in the tree of segments. -/
inductive MappingNode where
  | node (kind : Option PropertyKind) (subField : Option String)
    (children : List (String × MappingNode))

namespace MappingNode

def blank : MappingNode := .node none none []

/-- Declares what stands at the end of `segments`, making the nodes on the way. -/
def declare (kind : PropertyKind) (subField : Option String) :
    List String → MappingNode → MappingNode
  | [], .node _ _ children => .node (some kind) subField children
  | s :: rest, .node k f children =>
    let child := (Members.find? children s).getD blank
    .node k f (Members.insert s (declare kind subField rest child) children)

/-- The sub-field under `name` in which its exact text is indexed. -/
def subFieldOf (p : Property) : Option String :=
  p.raw.map fun raw => (Path.below? p.name raw).getD "raw"

/-- The tree of all declarations, the later after the earlier. -/
def ofProperties (properties : List Property) : MappingNode :=
  properties.foldl (fun n p => n.declare p.kind (subFieldOf p) (Path.segments p.name)) blank

/-- A leaf of kind `kind`. -/
def leafJson (kind : PropertyKind) (subField : Option String) : Json :=
  let type := ("type", Json.string kind.engineType)
  match subField with
  | none => .ofMembers [type]
  | some sub =>
    let exact :=
      Json.ofMembers [("type", .string "string"), ("index", .string "not_analyzed")]
    .ofMembers [type, ("fields", .ofMembers [(sub, exact)])]

mutual

def toJson : MappingNode → Json
  | .node kind subField children =>
    let kind := kind.getD .object
    if kind.isContainer || !children.isEmpty then
      let type := if kind = .list then "nested" else "object"
      .ofMembers [("type", .string type), ("properties", .object (childrenJson children))]
    else leafJson kind subField

def childrenJson : List (String × MappingNode) → List (String × Json)
  | [] => []
  | (name, child) :: rest => (name, child.toJson) :: childrenJson rest

end

/-- The children of a node. -/
def children : MappingNode → Members MappingNode
  | .node _ _ children => children

end MappingNode

/-- What the index of a mapping is created with. -/
def Mapping.indexBody (m : Mapping) : Json :=
  let properties := MappingNode.childrenJson (MappingNode.ofProperties m.properties).children
  .ofMembers [("mappings", .ofMembers [(m.docType,
    .ofMembers [("properties", .object properties)])])]

end DocumentSearch
