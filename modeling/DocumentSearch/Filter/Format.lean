import DocumentSearch.Filter.Basic

/-!
# The text of a filter

A filter is written as an object whose one member is named for the kind of condition, and read by
the rules for typed forms: what it holds may be an object with its fields by name or an array with
its fields by position.
-/

namespace DocumentSearch

open Json (Tree)

namespace RangeBound

def toTree : RangeBound → Tree
  | .single op value =>
    .record [("Single", .record [("op", .quoted op.name), ("value", value.toTree)])]
  | .between lowOp low highOp high =>
    .record [("Between", .record [("low_op", .quoted lowOp.name), ("low", low.toTree),
      ("high_op", .quoted highOp.name), ("high", high.toTree)])]

def ofTree? (depth : Nat) (t : Tree) : Option RangeBound :=
  match t.inside? depth, t.variant? with
  | some depth, some ("Single", some body) =>
    match body.inside? depth, body.fields? ["op", "value"] with
    | some depth, some [some op, some value] => do
      some (.single (← Tree.choice? RangeOp.ofName? depth op) (← Scalar.ofTree? depth value))
    | _, _ => none
  | some depth, some ("Between", some body) =>
    match body.inside? depth, body.fields? ["low_op", "low", "high_op", "high"] with
    | some depth, some [some lowOp, some low, some highOp, some high] => do
      some (.between (← Tree.choice? RangeOp.ofName? depth lowOp) (← Scalar.ofTree? depth low)
        (← Tree.choice? RangeOp.ofName? depth highOp) (← Scalar.ofTree? depth high))
    | _, _ => none
  | _, _ => none

end RangeBound

namespace Filter

/-- A path and a value, as an array of the two. -/
def pairTree (p : String × Scalar) : Tree := .listed [.quoted p.1, p.2.toTree]

def boolTree (b : Bool) : Tree := .atom (.bool b)

mutual

def toTree : Filter → Tree
  | .and children => .record [("And", .listed (treesOf children))]
  | .or children => .record [("Or", .listed (treesOf children))]
  | .not child => .record [("Not", child.toTree)]
  | .equals path value =>
    .record [("Equals", .record [("path", .quoted path), ("value", value.toTree)])]
  | .notEquals path value =>
    .record [("NotEquals", .record [("path", .quoted path), ("value", value.toTree)])]
  | .allEquals pairs => .record [("AllEquals", .listed (pairs.map pairTree))]
  | .range path bound =>
    .record [("Range", .record [("path", .quoted path), ("range", bound.toTree)])]
  | .oneOf path values negated =>
    .record [("In", .record [("path", .quoted path),
      ("values", .listed (values.map Scalar.toTree)), ("negated", boolTree negated)])]
  | .ids values => .record [("Ids", .listed (values.map Scalar.toTree))]
  | .like path text type caseInsensitive =>
    .record [("Like", .record [("path", .quoted path), ("value", .quoted text),
      ("like_type", .quoted type.name), ("case_insensitive", boolTree caseInsensitive)])]
  | .exists path mustExist =>
    .record [("Exists", .record [("path", .quoted path), ("must_exist", boolTree mustExist)])]

def treesOf : List Filter → List Tree
  | [] => []
  | f :: rest => f.toTree :: treesOf rest

end

/-- The text of a filter. -/
def write (f : Filter) : String := f.toTree.write

/-- Reads the elements of an array that stands `depth` deep; they stand one level deeper. -/
def listOf? {α : Type} (read : Nat → Tree → Option α) (depth : Nat) (t : Tree) :
    Option (List α) :=
  match t.inside? depth with
  | some depth => t.list? (read depth)
  | none => none

def pairOf? (depth : Nat) (t : Tree) : Option (String × Scalar) :=
  match t.inside? depth, t.items? with
  | some depth, some [path, value] => do some (← path.string?, ← Scalar.ofTree? depth value)
  | _, _ => none

/-- Reads the fields of a condition, which stand `depth` deep. -/
def conditionOf? (depth : Nat) (name : String) (body : Tree) : Option Filter :=
  let fields (names : List String) : Option (Nat × List (Option Tree)) := do
    some (← body.inside? depth, ← body.fields? names)
  match name with
  | "Equals" =>
    match fields ["path", "value"] with
    | some (depth, [some path, some value]) => do
      some (.equals (← path.string?) (← Scalar.ofTree? depth value))
    | _ => none
  | "NotEquals" =>
    match fields ["path", "value"] with
    | some (depth, [some path, some value]) => do
      some (.notEquals (← path.string?) (← Scalar.ofTree? depth value))
    | _ => none
  | "AllEquals" => (listOf? pairOf? depth body).map .allEquals
  | "Range" =>
    match fields ["path", "range"] with
    | some (depth, [some path, some bound]) => do
      some (.range (← path.string?) (← RangeBound.ofTree? depth bound))
    | _ => none
  | "In" =>
    match fields ["path", "values", "negated"] with
    | some (depth, [some path, some values, some negated]) => do
      some (.oneOf (← path.string?) (← listOf? Scalar.ofTree? depth values) (← negated.bool?))
    | _ => none
  | "Ids" => (listOf? Scalar.ofTree? depth body).map .ids
  | "Like" =>
    match fields ["path", "value", "like_type", "case_insensitive"] with
    | some (depth, [some path, some text, some type, some caseInsensitive]) => do
      some (.like (← path.string?) (← text.string?)
        (← Tree.choice? LikeType.ofName? depth type) (← caseInsensitive.bool?))
    | _ => none
  | "Exists" =>
    match fields ["path", "must_exist"] with
    | some (_, [some path, some mustExist]) => do
      some (.exists (← path.string?) (← mustExist.bool?))
    | _ => none
  | _ => none

/-- Reads a filter that may be nested at most `depth` deep. A junction takes two levels for its
children, so the depth that is left bounds the recursion. -/
def ofTree? (depth : Nat) (t : Tree) : Option Filter :=
  match depth, t.variant? with
  | depth + 1, some ("And", some body) =>
    match depth with
    | inner + 1 => (body.list? (ofTree? inner)).map .and
    | 0 => none
  | depth + 1, some ("Or", some body) =>
    match depth with
    | inner + 1 => (body.list? (ofTree? inner)).map .or
    | 0 => none
  | depth + 1, some ("Not", some body) => (ofTree? depth body).map .not
  | depth + 1, some (name, some body) => conditionOf? depth name body
  | _, _ => none

/-- Reads a filter from its text. -/
def read? (s : List Utf8.Symbol) : Option Filter :=
  (Tree.parse? s).bind (ofTree? Json.maxDepth)

end Filter

end DocumentSearch
