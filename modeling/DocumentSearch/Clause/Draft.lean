import DocumentSearch.Clause.Basic
import DocumentSearch.Mapping.Basic

/-!
# Drafts

A draft is a filter in the course of being put together, clause by clause: the `bool` scopes that
are open, at most one nested scope inside the innermost of them, and the clauses outside all
scopes. Leaf clauses go into the nested scope while one is open. It stays open from one leaf to the
next as long as they share a many root, and ends with any scope that opens or closes.
-/

namespace DocumentSearch

structure Scope where
  occur : Occur
  clauses : List Clause

structure NestedScope where
  path : String
  /-- The occurrence of the scope around it, which its own clauses share when there are several. -/
  occur : Occur
  clauses : List Clause

structure Draft where
  /-- The innermost first. -/
  scopes : List Scope
  nested : Option NestedScope
  root : List Clause

namespace Draft

def blank : Draft := ⟨[], none, []⟩

/-- The occurrence of the innermost scope. -/
def occur (d : Draft) : Occur :=
  match d.scopes with
  | [] => .must
  | s :: _ => s.occur

/-- Adds a clause to the innermost scope, beside a nested one. -/
def push (d : Draft) (c : Clause) : Draft :=
  match d.scopes with
  | [] => { d with root := d.root ++ [c] }
  | s :: rest => { d with scopes := { s with clauses := s.clauses ++ [c] } :: rest }

/-- Adds a leaf, inside the nested scope when there is one. -/
def emit (d : Draft) (l : LeafClause) : Draft :=
  match d.nested with
  | none => d.push (.leaf l)
  | some n => { d with nested := some { n with clauses := n.clauses ++ [.leaf l] } }

/-- The filter of a nested scope: nothing, its only clause, or all of them. -/
def nestedFilter (n : NestedScope) : Option Clause :=
  match n.clauses with
  | [] => none
  | [c] => some c
  | cs => some (.bool n.occur cs)

/-- Ends the nested scope, if there is one. -/
def endNested (d : Draft) : Draft :=
  match d.nested with
  | none => d
  | some n =>
    let d := { d with nested := none }
    match nestedFilter n with
    | none => d
    | some f => d.push (.nested n.path f)

/-- Begins the nested scope of a many root, unless it is open already. -/
def startNested (d : Draft) (path : String) : Draft :=
  match d.nested with
  | some n =>
    if n.path = path then d
    else
      let d := d.endNested
      { d with nested := some ⟨path, d.occur, []⟩ }
  | none => { d with nested := some ⟨path, d.occur, []⟩ }

/-- Opens, keeps or ends the nested scope for a leaf on `target`. -/
def prepare (d : Draft) (target : FieldTarget) : Draft :=
  match target.manyRoot with
  | some root => d.startNested root
  | none => d.endNested

def startBool (d : Draft) (occur : Occur) : Draft :=
  let d := d.endNested
  { d with scopes := ⟨occur, []⟩ :: d.scopes }

def endBool (d : Draft) : Except StoreError Draft :=
  let d := d.endNested
  match d.scopes with
  | [] => .error (.compilation .unmatchedClose)
  | s :: rest => .ok ({ d with scopes := rest }.push (.bool s.occur s.clauses))

/-- The clause that has been put together. -/
def finish (d : Draft) : Except StoreError Clause :=
  let d := d.endNested
  match d.scopes, d.root with
  | [], [] => .error (.compilation .noClause)
  | [], [c] => .ok c
  | [], cs => .error (.compilation (.severalClauses cs.length))
  | scopes, _ => .error (.compilation (.scopesLeftOpen scopes.length))

end Draft

end DocumentSearch
