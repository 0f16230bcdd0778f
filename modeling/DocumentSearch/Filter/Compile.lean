import DocumentSearch.Clause.Draft
import DocumentSearch.Document
import DocumentSearch.Filter.Basic
import DocumentSearch.Text.Lowercase
import DocumentSearch.Text.Words

/-!
# Compiling filters

Writes a filter into a draft. A leaf first finds its property, then reads its values, and only then
touches the draft, so of several faults the one that comes first in the filter is the one that is
reported.
-/

namespace DocumentSearch

namespace RecordType

/-- Where a filter on documents of this type finds `path`. -/
def resolve (t : RecordType) (path : String) : Except StoreError FieldTarget :=
  match t.mapping.target? path with
  | some target => .ok target
  | none => .error (.compilation (.unknownPath path t.key))

end RecordType

namespace Filter

/-- Writes inside a scope of its own. -/
def inScope (occur : Occur) (write : Draft → Except StoreError Draft) (d : Draft) :
    Except StoreError Draft := do
  let d ← write (d.startBool occur)
  d.endBool

/-- Writes inside a `must_not` scope when `negated`. -/
def negatedWhen (negated : Bool) (write : Draft → Except StoreError Draft) (d : Draft) :
    Except StoreError Draft :=
  if negated then inScope .mustNot write d else write d

def writeExists (t : RecordType) (path : String) (mustExist : Bool) (d : Draft) :
    Except StoreError Draft := do
  let target ← t.resolve path
  negatedWhen (!mustExist) (fun d => .ok ((d.prepare target).emit (.exists path))) d

/-- Equality with null asks that the property does not exist. -/
def writeEquals (t : RecordType) (path : String) (value : Scalar) (d : Draft) :
    Except StoreError Draft :=
  if value.isNull then writeExists t path false d
  else do
    let target ← t.resolve path
    let value ← value.toJson
    .ok ((d.prepare target).emit (.term target.rawField value))

def writeAllEquals (t : RecordType) : List (String × Scalar) → Draft → Except StoreError Draft
  | [], d => .ok d
  | (path, value) :: rest, d => do
    let d ← writeEquals t path value d
    writeAllEquals t rest d

/-- The bounds of a range, the lower first. -/
def boundsOf (path : String) : RangeBound → Except StoreError (List (RangeOp × Json))
  | .single op value => do .ok [(op, ← value.toJson)]
  | .between lowOp low highOp high =>
    if lowOp.isLower ∧ ¬highOp.isLower then do
      let low ← low.toJson
      let high ← high.toJson
      .ok [(lowOp, low), (highOp, high)]
    else
      .error (.compilation (.invalidBetween lowOp.engineName highOp.engineName path))

def writeRange (t : RecordType) (path : String) (bound : RangeBound) (d : Draft) :
    Except StoreError Draft := do
  let target ← t.resolve path
  let bounds ← boundsOf path bound
  .ok ((d.prepare target).emit (.range target.rawField bounds))

def writeOneOf (t : RecordType) (path : String) (values : List Scalar) (negated : Bool)
    (d : Draft) : Except StoreError Draft := do
  let target ← t.resolve path
  let values ← Scalar.allToJson values
  negatedWhen negated (fun d => .ok ((d.prepare target).emit (.terms target.rawField values))) d

/-- Ids belong to the document and end any nested scope. -/
def writeIds (values : List Scalar) (d : Draft) : Except StoreError Draft := do
  let values ← Scalar.allToJson values
  .ok (d.endNested.emit (.ids values))

/-- The pattern language of the engine has `?` for one character and `*` for any run. -/
def wildcardOf (pattern : String) : String :=
  String.ofList (pattern.toList.map fun c => if c = '_' then '?' else if c = '%' then '*' else c)

/-- One full-text clause for each word; a text without words makes one clause all the same. -/
def writeWords (target : FieldTarget) (path : String) (d : Draft) : List String → Draft
  | [] => d
  | w :: rest => writeWords target path ((d.prepare target).emit (.fullText path w)) rest

def writeText (target : FieldTarget) (path lower : String) (d : Draft) :
    Except StoreError Draft :=
  match Text.words lower with
  | [] => .ok (writeWords target path d [""])
  | [w] => .ok (writeWords target path d [w])
  | ws => inScope .must (fun d => .ok (writeWords target path d ws)) d

/-- Patterns are matched against the analysed field, whose text is in lower case. -/
def writeLike (t : RecordType) (path text : String) (type : LikeType) (caseInsensitive : Bool)
    (d : Draft) : Except StoreError Draft := do
  let target ← t.resolve path
  if target.kind.isText then
    let lower := Text.lowercase text
    let emit (l : LeafClause) : Except StoreError Draft := .ok ((d.prepare target).emit l)
    match type with
    | .raw => emit (.wildcard path (wildcardOf lower))
    | .startsWith => emit (.startsWith path lower)
    | .endsWith => emit (.wildcard path ("*" ++ lower))
    | .contains => emit (.wildcard path ("*" ++ lower ++ "*"))
    | .equalTo =>
      if caseInsensitive then writeText target path lower d else writeEquals t path (.text text) d
  else .error (.compilation (.likeOnNonText path target.kind.name))

mutual

/-- Writes a filter into a draft. -/
def writeTo (t : RecordType) : Filter → Draft → Except StoreError Draft
  | .and children, d => writeJunction t .must children d
  | .or children, d => writeJunction t .should children d
  | .not child, d => inScope .mustNot (writeTo t child) d
  | .equals path value, d => writeEquals t path value d
  | .notEquals path value, d => inScope .mustNot (writeEquals t path value) d
  | .allEquals pairs, d => inScope .must (writeAllEquals t pairs) d
  | .range path bound, d => writeRange t path bound d
  | .oneOf path values negated, d => writeOneOf t path values negated d
  | .ids values, d => writeIds values d
  | .like path text type caseInsensitive, d => writeLike t path text type caseInsensitive d
  | .exists path mustExist, d => writeExists t path mustExist d

/-- A junction of one filter is that filter. -/
def writeJunction (t : RecordType) (occur : Occur) :
    List Filter → Draft → Except StoreError Draft
  | [], d => inScope occur .ok d
  | [f], d => writeTo t f d
  | f :: g :: rest, d =>
    inScope occur (fun d => do
      let d ← writeTo t f d
      let d ← writeTo t g d
      writeEach t rest d) d

def writeEach (t : RecordType) : List Filter → Draft → Except StoreError Draft
  | [], d => .ok d
  | f :: rest, d => do
    let d ← writeTo t f d
    writeEach t rest d

end

/-- The conditions of a filter that share a scope with an id. -/
def conjuncts : Filter → List Filter
  | .and children => children
  | f => [f]

/-- The clause of an id and a filter, of which at least one is given. The two together share one
`must` scope, in which the parts of a conjunction stand side by side. -/
def compile (t : RecordType) (id : Option Scalar) (filter : Option Filter) :
    Except StoreError Clause := do
  let d ←
    match id, filter with
    | some id, some f =>
      inScope .must (fun d => do
        let d ← writeIds [id] d
        writeEach t f.conjuncts d) .blank
    | some id, none => writeIds [id] .blank
    | none, some f => writeTo t f .blank
    | none, none => .ok .blank
  d.finish

end Filter

end DocumentSearch
