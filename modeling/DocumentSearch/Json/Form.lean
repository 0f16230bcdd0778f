import DocumentSearch.Json.Reader

/-!
# Typed forms

How typed values are read from syntax trees. A record is an object with its fields by name, or an
array with its fields by position. By name, fields it does not know are passed over unread, and a
field that stands twice is refused; by position, the fields at the end may be missing, and nothing
may follow the last. A choice is the name of an alternative, or an object whose one member is named
for it.
-/

namespace DocumentSearch.Json

namespace Tree

/-- The depth that is left inside a tree: brackets take one level, and there must be one. -/
def inside? (depth : Nat) : Tree → Option Nat
  | .atom _ => some depth
  | _ => if depth = 0 then none else some (depth - 1)

def string? : Tree → Option String
  | .atom (.string q) => Quoted.value? q
  | _ => none

def bool? : Tree → Option Bool
  | .atom (.bool b) => some b
  | _ => none

def number? : Tree → Option Number
  | .atom (.number n) => n.value?
  | _ => none

/-- A whole number that is spelled as one. -/
def int? (t : Tree) : Option Int :=
  match t.number? with
  | some (.int i) => some i
  | _ => none

/-- A whole number from `0` up to, and without, `bound`. -/
def natBelow? (bound : Nat) (t : Tree) : Option Nat :=
  match t.int? with
  | some i => if 0 ≤ i ∧ i.toNat < bound then some i.toNat else none
  | none => none

/-- A whole number of 64 bits without a sign. -/
def word? (t : Tree) : Option Nat := t.natBelow? 0x10000000000000000

/-- A whole number of 64 bits with a sign. -/
def int64? (t : Tree) : Option Int64 :=
  match t.int? with
  | some i => if -0x8000000000000000 ≤ i ∧ i < 0x8000000000000000 then some (.ofInt i) else none
  | none => none

/-- Any number, a whole one rounded to a double. -/
def float? (t : Tree) : Option Float :=
  match t.number? with
  | some (.float x) => some x
  | some (.int i) => some (if i < 0 then -(Float.ofNat i.natAbs) else Float.ofNat i.natAbs)
  | none => none

/-- A value that may be null. -/
def orNull? {α : Type} (read : Tree → Option α) : Tree → Option (Option α)
  | .atom .null => some none
  | t => (read t).map some

/-- An array whose elements are all read the same way. -/
def list? {α : Type} (read : Tree → Option α) (t : Tree) : Option (List α) :=
  t.items?.bind fun items => items.mapM read

/-- The fields of a record in the order of `names`, each if it is there. -/
def fields? (names : List String) (t : Tree) : Option (List (Option Tree)) :=
  match t.items? with
  | some items =>
    if items.length ≤ names.length then
      some (items.map some ++ List.replicate (names.length - items.length) none)
    else none
  | none =>
    match t.named? with
    | some entries =>
      if names.all fun name => (entries.filter fun e => e.1 = name).length ≤ 1 then
        some (names.map fun name => entries.lookup name)
      else none
    | none => none

/-- The alternative that is chosen, and what it holds. -/
def variant? (t : Tree) : Option (String × Option Tree) :=
  match t with
  | .atom (.string q) => (Quoted.value? q).map fun name => (name, none)
  | t =>
    match t.named? with
    | some [(name, payload)] => some (name, some payload)
    | _ => none

/-- Whether what an alternative holds is nothing: left out, or null. -/
def isUnit : Option Tree → Bool
  | none => true
  | some (.atom .null) => true
  | _ => false

/-- The alternative that is chosen, of those that hold nothing and are told apart by name. -/
def choice? {α : Type} (ofName? : String → Option α) (depth : Nat) (t : Tree) : Option α :=
  match t.inside? depth, t.variant? with
  | some _, some (name, payload) => if isUnit payload then ofName? name else none
  | _, _ => none

end Tree

/-- A field that may be left out. -/
def optionalField {α : Type} (default : α) (read : Tree → Option α) : Option Tree → Option α
  | none => some default
  | some t => read t

/-- A field that must be there. -/
def requiredField {α : Type} (read : Tree → Option α) (field : Option Tree) : Option α :=
  field.bind read

end DocumentSearch.Json
