/-!
# Document values

The values that documents and queries are made of. The members of an object have no order of their
own: they are kept sorted by name, by code point, which is also the order in which they are
written.
-/

namespace DocumentSearch

/-- The members of an object, or anything else found by name: sorted, each name once. -/
abbrev Members (α : Type) := List (String × α)

namespace Members

variable {α : Type}

def empty : Members α := []

def find? (members : Members α) (name : String) : Option α :=
  match members with
  | [] => none
  | (k, v) :: rest => if k = name then some v else find? rest name

/-- Puts `value` under `name`, in place of the value it had. -/
def insert (name : String) (value : α) : Members α → Members α
  | [] => [(name, value)]
  | (k, v) :: rest =>
    if k = name then (name, value) :: rest
    else if name < k then (name, value) :: (k, v) :: rest
    else (k, v) :: insert name value rest

/-- The members that a list spells: of two with one name, the later one. -/
def ofList (entries : List (String × α)) : Members α :=
  entries.foldl (fun ms e => ms.insert e.1 e.2) empty

end Members

/-- A number as it is kept: exactly when it is whole and fits 64 bits, with a sign or without one,
and as a double otherwise. -/
inductive Json.Number where
  | int (i : Int)
  | float (x : Float)

inductive Json where
  | null
  | bool (b : Bool)
  | number (n : Json.Number)
  | string (s : String)
  | array (items : List Json)
  | object (members : List (String × Json))

namespace Json

instance : Inhabited Json := ⟨.null⟩

/-- The object with these members. -/
def ofMembers (entries : List (String × Json)) : Json := .object (Members.ofList entries)

def ofNat (n : Nat) : Json := .number (.int n)

def strings (items : List String) : Json := .array (items.map .string)

/-- The value under `name`; nothing has one but an object. -/
def get? (j : Json) (name : String) : Option Json :=
  match j with
  | .object ms => Members.find? ms name
  | _ => none

end Json

end DocumentSearch
