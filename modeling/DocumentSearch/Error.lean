import DocumentSearch.Decimal.Notation

/-!
# What can go wrong

Every operation of the store fails with one of these causes. The wording of a cause is in its
`message`, so nothing else depends on how it reads.
-/

namespace DocumentSearch

/-- A span of time in nanoseconds. -/
structure Duration where
  nanoseconds : Nat
  deriving DecidableEq, Repr

/-- Decimal digits of `n`, at least `width` of them. -/
def zeroPadded (width n : Nat) : String :=
  let s := toString n
  String.ofList (List.replicate (width - s.length) '0') ++ s

/-- A whole number of units and what is left over in parts of `10 ^ width`, without the zeros at
the end. -/
def decimalText (whole rest width : Nat) : String :=
  let fraction := (zeroPadded width rest).toList.reverse.dropWhile (· = '0')
  if fraction = [] then toString whole else s!"{whole}." ++ String.ofList fraction.reverse

/-- A duration in the largest of the units s, ms, µs and ns that it fills at least once. -/
def Duration.text (d : Duration) : String :=
  let n := d.nanoseconds
  if 1000000000 ≤ n then decimalText (n / 1000000000) (n % 1000000000) 9 ++ "s"
  else if 1000000 ≤ n then decimalText (n / 1000000) (n % 1000000) 6 ++ "ms"
  else if 1000 ≤ n then decimalText (n / 1000) (n % 1000) 3 ++ "µs"
  else toString n ++ "ns"

/-- Why a request did not reach the engine, or its answer did not come back. -/
inductive TransportError where
  | connection (reason : String)
  | timeout (after : Duration)
  | io (reason : String)
  deriving DecidableEq, Repr

def TransportError.message : TransportError → String
  | .connection reason => "Connection failed: " ++ reason
  | .timeout after => "Request timed out after " ++ after.text
  | .io reason => "I/O error: " ++ reason

/-- Why an answer of the engine cannot be read. -/
inductive MalformedResponse where
  | envelope
  | sourceText
  | sourceNotObject
  | noSource (hit : String)
  | noCursor
  | other (reason : String)
  deriving DecidableEq, Repr

/-- The reasons, except that `envelope` and `sourceText` leave out where the text went wrong. -/
def MalformedResponse.message : MalformedResponse → String
  | .envelope => "search response: "
  | .sourceText => "invalid _source: "
  | .sourceNotObject => "_source is not a JSON object"
  | .noSource hit => s!"hit {hit} has no _source"
  | .noCursor => "partial page without _scroll_id"
  | .other reason => reason

/-- Why a request has no query document. The last four say that the clauses of a filter were put
together wrongly, whatever the filter. -/
inductive CompilationError where
  | unknownPath (path typeKey : String)
  | invalidBetween (low high path : String)
  | likeOnNonText (path kind : String)
  | scopesLeftOpen (count : Nat)
  | noClause
  | severalClauses (count : Nat)
  | unmatchedClose
  | other (reason : String)
  deriving DecidableEq, Repr

def CompilationError.message : CompilationError → String
  | .unknownPath path key => s!"unknown property path '{path}' on type '{key}'"
  | .invalidBetween low high path => s!"invalid between operators {low} / {high} on '{path}'"
  | .likeOnNonText path kind => s!"like on non-text property '{path}' ({kind})"
  | .scopesLeftOpen count => s!"{count} bool scope(s) left open"
  | .noClause => "filter produced no clause"
  | .severalClauses count => s!"filter produced {count} top-level clauses"
  | .unmatchedClose => "bool scope closed without a matching open"
  | .other reason => reason

inductive StoreError where
  | notFound (context : String)
  | unexpectedStatus (status : Nat) (body : String)
  | malformed (cause : MalformedResponse)
  | compilation (cause : CompilationError)
  | notFinite (value : Float)
  | transport (cause : TransportError)
  | roundsExceeded (limit : Nat)
  | unmappedType (key : String)

namespace StoreError

/-- What a caller can do about an error: only a missing document is ordinary. -/
inductive Category where
  | notFound
  | io
  deriving DecidableEq, Repr

def category : StoreError → Category
  | .notFound _ => .notFound
  | _ => .io

def isNotFound (e : StoreError) : Bool := e.category = .notFound

/-- The name under which an error is counted. -/
def kind : StoreError → String
  | .notFound _ => "not_found"
  | .unexpectedStatus .. => "wire_protocol"
  | .malformed _ => "malformed_response"
  | .compilation _ => "compilation"
  | .notFinite _ => "serialization"
  | .transport _ => "transport"
  | .roundsExceeded _ => "scroll_rounds_exceeded"
  | .unmappedType _ => "unmapped_type"

def message : StoreError → String
  | .notFound context => "Document not found: " ++ context
  | .unexpectedStatus status body => s!"Unhandled response code {status} body:" ++ body
  | .malformed cause => "Malformed search response: " ++ cause.message
  | .compilation cause => "Query compilation failed: " ++ cause.message
  | .notFinite value =>
    s!"JSON serialization failed: non-finite number {Decimal.plainText value} in query"
  | .transport cause => "Transport failure: " ++ cause.message
  | .roundsExceeded limit => s!"Scroll did not finish within {limit} continuation rounds"
  | .unmappedType key => s!"No document store mapping for type '{key}'"

end StoreError

end DocumentSearch
