import DocumentSearch.Mapping.Basic

/-!
# The registered mappings

Mappings by the key of their type, in the order in which the types were registered. A type that is
registered again keeps its place.
-/

namespace DocumentSearch

structure Registry where
  entries : List (String × Mapping)
  deriving DecidableEq, Repr

namespace Registry

def empty : Registry := ⟨[]⟩

/-- Puts `mapping` where `key` stands, or last when it stands nowhere. -/
def registerIn (key : String) (mapping : Mapping) :
    List (String × Mapping) → List (String × Mapping)
  | [] => [(key, mapping)]
  | (k, m) :: rest =>
    if k = key then (key, mapping) :: rest else (k, m) :: registerIn key mapping rest

def register (r : Registry) (key : String) (mapping : Mapping) : Registry :=
  ⟨registerIn key mapping r.entries⟩

def contains (r : Registry) (key : String) : Bool := r.entries.any fun e => e.1 = key

def unregister (r : Registry) (key : String) : Registry :=
  ⟨r.entries.eraseP fun e => e.1 = key⟩

/-- Takes out the mapping of `key`, if there is one; says whether there was. -/
def remove (r : Registry) (key : String) : Bool × Registry :=
  if r.contains key then (true, r.unregister key) else (false, r)

def get? (r : Registry) (key : String) : Option Mapping :=
  (r.entries.find? fun e => e.1 = key).map (·.2)

/-- All mappings in the order of their registration. -/
def all (r : Registry) : List Mapping := r.entries.map (·.2)

def size (r : Registry) : Nat := r.entries.length

def isEmpty (r : Registry) : Bool := r.entries.isEmpty

end Registry

end DocumentSearch
