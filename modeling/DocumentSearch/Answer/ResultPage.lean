import DocumentSearch.Error
import DocumentSearch.Json.Form
import DocumentSearch.Json.Writer

/-!
# Result pages

One page of the engine's answer to a search: how many hits there are in all, the cursor to go on
with, and the hits of the page. The envelope is read as a typed form, so members it does not know
are passed over; the source of a hit is kept as the text that was sent.
-/

namespace DocumentSearch

open Json (Tree)

structure Hit where
  id : String
  score : Option Float
  /-- The text of the source, without the white space around it. -/
  source : Option String
  fields : Members Json

structure ResultPage where
  total : Nat
  cursor : Option String
  hits : List Hit

namespace ResultPage

/-- The text of a value, which must be UTF-8. -/
def rawText? (t : Tree) : Option String := Utf8.text? t.text

/-- The number of hits: a whole number, or an object that gives one as its `value`. Either must be
readable to the end. -/
def totalOf? (depth : Nat) (t : Tree) : Option Nat :=
  if t.isReadable depth then
    match t.named? with
    | none => t.word?
    | some entries =>
      match entries.filter fun e => e.1 = "value" with
      | [(_, value)] => value.word?
      | _ => none
  else none

def hitOf? (depth : Nat) (t : Tree) : Option Hit :=
  match t.inside? depth, t.fields? ["_id", "_score", "_source", "fields"] with
  | some depth, some [id, score, source, fields] => do
    let id ← Json.requiredField Tree.string? id
    let score ← Json.optionalField none (Tree.orNull? Tree.float?) score
    let source ← Json.optionalField none (Tree.orNull? rawText?) source
    let fields ← Json.optionalField [] (Json.membersOfTree? depth) fields
    some ⟨id, score, source, fields⟩
  | _, _ => none

def hitsOf? (depth : Nat) (t : Tree) : Option (List Hit) :=
  match t.inside? depth with
  | some depth => t.list? (hitOf? depth)
  | none => none

/-- The inner object, with the number of hits and the hits. -/
def bodyOf? (depth : Nat) (t : Tree) : Option (Nat × List Hit) :=
  match t.inside? depth, t.fields? ["total", "hits"] with
  | some depth, some [total, hits] => do
    let total ← Json.requiredField (totalOf? depth) total
    let hits ← Json.optionalField [] (hitsOf? depth) hits
    some (total, hits)
  | _, _ => none

def ofTree? (depth : Nat) (t : Tree) : Option ResultPage :=
  match t.inside? depth, t.fields? ["_scroll_id", "hits"] with
  | some depth, some [cursor, hits] => do
    let cursor ← Json.optionalField none (Tree.orNull? Tree.string?) cursor
    let (total, hits) ← Json.requiredField (bodyOf? depth) hits
    some ⟨total, cursor, hits⟩
  | _, _ => none

/-- Reads the page in the body of an answer. -/
def parse (body : List UInt8) : Except StoreError ResultPage :=
  match (Tree.parse? (Utf8.decode body)).bind (ofTree? Json.maxDepth) with
  | some page => .ok page
  | none => .error (.malformed .envelope)

/-- The body of an answer with this number of hits, this cursor and these hits. -/
def envelope (total : Nat) (cursor : Option String) (hits : List Json) : Json :=
  .ofMembers
    ([("took", .ofNat 1), ("timed_out", .bool false),
      ("hits", .ofMembers [("total", .ofNat total), ("max_score", .number (.float 1.0)),
        ("hits", .array hits)])] ++
      (cursor.map fun c => ("_scroll_id", Json.string c)).toList)

end ResultPage

end DocumentSearch
