import DocumentSearch.Error
import DocumentSearch.Json.Form
import DocumentSearch.Json.Writer

/-!
# Scalars

The values that filters compare with, and that documents are looked up by.
-/

namespace DocumentSearch

open Json (Tree)

inductive Scalar where
  | null
  | boolean (b : Bool)
  | integer (i : Int64)
  | numeric (x : Float)
  | text (s : String)
  | timestamp (t : Int64)

namespace Scalar

/-- The value in a query document. A double that is not finite has none. -/
def toJson : Scalar → Except StoreError Json
  | .null => .ok .null
  | .boolean b => .ok (.bool b)
  | .integer i | .timestamp i => .ok (.number (.int i.toInt))
  | .numeric x => if x.isFinite then .ok (.number (.float x)) else .error (.notFinite x)
  | .text s => .ok (.string s)

/-- The values in a query document, or the error of the first that has none. -/
def allToJson : List Scalar → Except StoreError (List Json)
  | [] => .ok []
  | v :: rest =>
    match v.toJson with
    | .error e => .error e
    | .ok j =>
      match allToJson rest with
      | .error e => .error e
      | .ok js => .ok (j :: js)

/-- The value as the id of a document. -/
def asText : Scalar → String
  | .null => ""
  | .boolean b => if b then "true" else "false"
  | .integer i | .timestamp i => toString i.toInt
  | .numeric x => Decimal.plainText x
  | .text s => s

def isNull : Scalar → Bool
  | .null => true
  | _ => false

/-! ### Text form -/

def toTree : Scalar → Tree
  | .null => .quoted "Null"
  | .boolean b => .record [("Boolean", .atom (.bool b))]
  | .integer i => .record [("Integer", .atom (.number (.ofInt i.toInt)))]
  | .numeric x => .record [("Numeric", .atom (Json.Number.atom (.float x)))]
  | .text s => .record [("Text", .quoted s)]
  | .timestamp t => .record [("Timestamp", .atom (.number (.ofInt t.toInt)))]

def ofTree? (depth : Nat) (t : Tree) : Option Scalar :=
  match t.inside? depth, t.variant? with
  | some _, some ("Null", payload) => if Tree.isUnit payload then some .null else none
  | some _, some ("Boolean", some v) => v.bool?.map .boolean
  | some _, some ("Integer", some v) => v.int64?.map .integer
  | some _, some ("Numeric", some v) => v.float?.map .numeric
  | some _, some ("Text", some v) => v.string?.map .text
  | some _, some ("Timestamp", some v) => v.int64?.map .timestamp
  | _, _ => none

end Scalar

end DocumentSearch
