/-!
# Measurements

What the store measures of itself. Every measurement is kept, in order; what a meter shows is the
sum of the measurements of its series, which are told apart by name and labels.
-/

namespace DocumentSearch

/-- The operations that are counted by how they end. -/
inductive StoreOperation where
  | findList
  | findPagedList
  | findEach
  | findEachRawSource
  | getById
  | createIndex
  deriving DecidableEq, Repr

def StoreOperation.name : StoreOperation → String
  | .findList => "find_list"
  | .findPagedList => "find_paged_list"
  | .findEach => "find_each"
  | .findEachRawSource => "find_each_raw_source"
  | .getById => "get_by_id"
  | .createIndex => "create_index"

inductive IndexOperation where
  | create
  | drop
  | addAlias
  deriving DecidableEq, Repr

def IndexOperation.name : IndexOperation → String
  | .create => "create"
  | .drop => "drop"
  | .addAlias => "alias"

inductive Measurement where
  | operation (op : StoreOperation) (succeeded : Bool)
  | error (op : StoreOperation) (kind : String)
  | latency (op : StoreOperation)
  | queryBytes (count : Nat)
  | pageHits (count : Nat)
  | scrollRound
  | scrollRecords (count : Nat)
  | cursorRelease (count : Nat) (succeeded : Bool)
  | scrollOpened
  | scrollClosed
  | indexOperation (op : IndexOperation) (succeeded : Bool)
  deriving DecidableEq, Repr

/-- One meter: its name, and its labels in order. -/
structure Series where
  name : String
  labels : List String
  deriving DecidableEq, Repr

/-- What a meter shows. Of durations only their number is kept. -/
inductive Meter where
  | counter (n : Nat)
  | gauge (level : Int)
  | histogram (samples : List Nat)
  | durations (n : Nat)
  deriving DecidableEq, Repr

def statusLabel (success failure : String) (succeeded : Bool) : String :=
  "status=" ++ if succeeded then success else failure

namespace Measurement

/-- What a measurement adds to which series. -/
def readings : Measurement → List (Series × Meter)
  | .operation op ok =>
    [(⟨"docstore_operations_total",
      ["operation=" ++ op.name, statusLabel "success" "error" ok]⟩, .counter 1)]
  | .error op kind =>
    [(⟨"docstore_errors_total", ["kind=" ++ kind, "operation=" ++ op.name]⟩, .counter 1)]
  | .latency op => [(⟨"docstore_operation_seconds", ["operation=" ++ op.name]⟩, .durations 1)]
  | .queryBytes n => [(⟨"docstore_query_bytes", []⟩, .histogram [n])]
  | .pageHits n => [(⟨"docstore_page_hits", []⟩, .histogram [n])]
  | .scrollRound => [(⟨"docstore_scroll_rounds_total", []⟩, .counter 1)]
  | .scrollRecords n => [(⟨"docstore_scroll_records", []⟩, .histogram [n])]
  | .cursorRelease n ok =>
    [(⟨"docstore_cursor_releases_total", [statusLabel "success" "failure" ok]⟩, .counter 1),
      (⟨"docstore_cursors_released", []⟩, .histogram [n])]
  | .scrollOpened => [(⟨"docstore_open_scrolls", []⟩, .gauge 1)]
  | .scrollClosed => [(⟨"docstore_open_scrolls", []⟩, .gauge (-1))]
  | .indexOperation op ok =>
    [(⟨"docstore_index_operations_total",
      ["operation=" ++ op.name, statusLabel "success" "failure" ok]⟩, .counter 1)]

end Measurement

namespace Meter

/-- The sum of two readings of one series; a series has readings of one sort only. -/
def add : Meter → Meter → Meter
  | .counter m, .counter n => .counter (m + n)
  | .gauge a, .gauge b => .gauge (a + b)
  | .histogram xs, .histogram ys => .histogram (xs ++ ys)
  | .durations m, .durations n => .durations (m + n)
  | _, r => r

end Meter

/-- The order of series: by name, then by labels. -/
def Series.precedes (a b : Series) : Bool := a.name :: a.labels < b.name :: b.labels

/-- Adds a reading to its series. -/
def addReading (s : Series) (r : Meter) : List (Series × Meter) → List (Series × Meter)
  | [] => [(s, r)]
  | (s', r') :: rest =>
    if s' = s then (s, r'.add r) :: rest
    else if s.precedes s' then (s, r) :: (s', r') :: rest
    else (s', r') :: addReading s r rest

/-- What all meters show after the measurements of a log. -/
def meters (log : List Measurement) : List (Series × Meter) :=
  (log.flatMap Measurement.readings).foldl (fun ms e => addReading e.1 e.2 ms) []

end DocumentSearch
