import DocumentSearch.Scalar

/-!
# Filters

A filter is a tree of conditions on the properties of a document, joined by *and*, *or* and *not*.
Several conditions have a plain form and a shorter one; both are kept apart, because a filter is
also stored as text.
-/

namespace DocumentSearch

inductive RangeOp where
  | gt
  | ge
  | lt
  | le
  deriving DecidableEq, Repr

namespace RangeOp

/-- The operator's name in a query document. -/
def engineName : RangeOp → String
  | .gt => "gt"
  | .ge => "gte"
  | .lt => "lt"
  | .le => "lte"

/-- Whether it bounds from below. -/
def isLower : RangeOp → Bool
  | .gt | .ge => true
  | .lt | .le => false

/-- The operator's name in the text of a filter. -/
def name : RangeOp → String
  | .gt => "Gt"
  | .ge => "Ge"
  | .lt => "Lt"
  | .le => "Le"

def all : List RangeOp := [.gt, .ge, .lt, .le]

def ofName? (name : String) : Option RangeOp := all.find? fun op => op.name = name

end RangeOp

inductive RangeBound where
  | single (op : RangeOp) (value : Scalar)
  | between (lowOp : RangeOp) (low : Scalar) (highOp : RangeOp) (high : Scalar)

/-- How the text of a pattern is read. -/
inductive LikeType where
  /-- `%` stands for any run of characters and `_` for one. -/
  | raw
  | startsWith
  | endsWith
  | contains
  | equalTo
  deriving DecidableEq, Repr

namespace LikeType

def name : LikeType → String
  | .raw => "Raw"
  | .startsWith => "StartsWith"
  | .endsWith => "EndsWith"
  | .contains => "Contains"
  | .equalTo => "EqualTo"

def all : List LikeType := [.raw, .startsWith, .endsWith, .contains, .equalTo]

def ofName? (name : String) : Option LikeType := all.find? fun t => t.name = name

end LikeType

inductive Filter where
  | and (children : List Filter)
  | or (children : List Filter)
  | not (child : Filter)
  | equals (path : String) (value : Scalar)
  | notEquals (path : String) (value : Scalar)
  | allEquals (pairs : List (String × Scalar))
  | range (path : String) (bound : RangeBound)
  | oneOf (path : String) (values : List Scalar) (negated : Bool)
  | ids (values : List Scalar)
  | like (path text : String) (type : LikeType) (caseInsensitive : Bool)
  | exists (path : String) (mustExist : Bool)

namespace Filter

/-- Both ends included. -/
def between (path : String) (low high : Scalar) : Filter :=
  .range path (.between .ge low .le high)

def compare (path : String) (op : RangeOp) (value : Scalar) : Filter :=
  .range path (.single op value)

/-- Conditions joined by `join`: none make no filter, and one stands alone. -/
def joined (join : List Filter → Filter) : List Filter → Option Filter
  | [] => none
  | [f] => some f
  | fs => some (join fs)

/-- All of the conditions. -/
def allOf (fs : List Filter) : Option Filter := joined .and fs

/-- Any of the conditions. -/
def anyOf (fs : List Filter) : Option Filter := joined .or fs

end Filter

end DocumentSearch
