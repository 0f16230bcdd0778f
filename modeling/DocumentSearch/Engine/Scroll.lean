import DocumentSearch.Answer.Materialize
import DocumentSearch.Engine.CursorSet

/-!
# Scrolling

A scroll reads all hits of a search page by page and hands each record to a consumer, which may
stop it. It ends with the page that holds all hits, or none; each page before that must come with a
cursor for the next one. Whatever ends it, the cursors that were seen are released before the
outcome is known. A page counts, with its cursor, from when all its hits have been read.
-/

namespace DocumentSearch

/-- How hits are read, and when to stop: `stop` is asked after each record, with all that have been
handed out so far. -/
structure Scroll (α : Type) where
  read : Materializer α
  stop : List α → Bool
  /-- How many continuations are made at most. -/
  maxRounds : Option Nat

/-- How far a scroll has come. -/
structure Progress (α : Type) where
  cursors : CursorSet
  rounds : Nat
  records : List α

/-- How a scroll ended, and the records it handed out. -/
structure Streamed (α : Type) where
  outcome : Outcome Nat
  records : List α

/-- How a scroll goes on after a page. -/
inductive Turn where
  | finished
  | next (cursor : String)
  | failed (e : StoreError)

/-- Hands out records after those of `given`, until the consumer stops it. -/
def handOut {α : Type} (stop : List α → Bool) (given : List α) : List α → List α × Bool
  | [] => (given, false)
  | r :: rest =>
    let given := given ++ [r]
    if stop given then (given, true) else handOut stop given rest

namespace Scroll

variable {α : Type}

/-- Whether another continuation would be one too many. -/
def atLimit (s : Scroll α) (rounds : Nat) : Option Nat :=
  match s.maxRounds with
  | some limit => if limit ≤ rounds then some limit else none
  | none => none

/-- How to go on after a page whose records have all been handed out. -/
def turnAfter (s : Scroll α) (rounds : Nat) (page : SearchPage α) : Turn :=
  if page.allHitsRead || page.zeroHits then .finished
  else
    match s.atLimit rounds, page.cursor with
    | some limit, _ => .failed (.roundsExceeded limit)
    | none, none => .failed (.malformed .noCursor)
    | none, some cursor => .next cursor

/-- Reads the body of an answer: the cursor is noted and the records are handed out. -/
def take (s : Scroll α) (p : Progress α) (body : List UInt8) :
    Turn × Progress α × List Measurement :=
  match SearchPage.parse s.read body with
  | .error e => (.failed e, p, [])
  | .ok page =>
    let (records, stopped) := handOut s.stop p.records page.records
    let cursors := p.cursors.addAll page.cursor.toList
    (if stopped then .finished else s.turnAfter p.rounds page,
      { p with cursors := cursors, records := records }, [.pageHits page.records.length])

/-- Goes on from the body of an answer to the end. Each continuation that is answered takes a
response from the engine, so there are only so many. -/
def drive (s : Scroll α) (p : Progress α) (body : List UInt8) (h : Host) :
    Outcome Unit × Progress α × Host :=
  match s.take p body with
  | (turn, p, measured) =>
    let h := h.recordAll measured
    match turn with
    | .finished => (.ok (), p, h)
    | .failed e => (.error e, p, h)
    | .next cursor =>
      let p := { p with rounds := p.rounds + 1 }
      let h := h.record .scrollRound
      match _reply : h.engine.getScroll cursor with
      | (.stalled, engine) => (.cancelled, p, { h with engine := engine })
      | (.done (.error e), engine) => (.error (.transport e), p, { h with engine := engine })
      | (.done (.ok response), engine) =>
        match response.content s!"404 for scrollId:{cursor}" with
        | .error e => (.error e, p, { h with engine := engine })
        | .ok body => s.drive p body { h with engine := engine }
termination_by h.engine.responses.length
decreasing_by exact Engine.length_responses_of_getScroll_ok _reply

/-- Starts the search and goes on to the end. -/
def start (s : Scroll α) (docType index query : String) (h : Host) :
    Outcome Unit × Progress α × Host :=
  let p : Progress α := ⟨.empty, 0, []⟩
  match Action.call (fun e => e.postQuery true docType index query) h with
  | (.cancelled, h) => (.cancelled, p, h)
  | (.error e, h) => (.error e, p, h)
  | (.ok response, h) =>
    match response.content "404 for query?" with
    | .error e => (.error e, p, h)
    | .ok body => s.drive p body h

/-- Ends a scroll that was not cancelled before: the cursors are released first. -/
def settle (outcome : Outcome Unit) (p : Progress α) (h : Host) : Streamed α × Host :=
  match p.cursors.release h with
  | (false, cursors, h) => (⟨.cancelled, p.records⟩, cursors.abandon true h)
  | (true, _, h) =>
    let h := h.record .scrollClosed
    match outcome with
    | .ok _ =>
      let count := p.records.length
      (⟨.ok count, p.records⟩, h.record (.scrollRecords count))
    | .error e => (⟨.error e, p.records⟩, h)
    | .cancelled => (⟨.cancelled, p.records⟩, h)

/-- Runs a scroll over the hits of a search. -/
def run (s : Scroll α) (docType index query : String) (h : Host) : Streamed α × Host :=
  match s.start docType index query (h.record .scrollOpened) with
  | (.cancelled, p, h) => (⟨.cancelled, p.records⟩, p.cursors.abandon true h)
  | (outcome, p, h) => settle outcome p h

/-- Gathers all records. -/
def collect (read : Materializer α) (maxRounds : Option Nat) (docType index query : String) :
    Action (List α) := fun h =>
  let s : Scroll α := ⟨read, fun _ => false, maxRounds⟩
  match s.run docType index query h with
  | (⟨.ok _, records⟩, h) => (.ok records, h)
  | (⟨.error e, _⟩, h) => (.error e, h)
  | (⟨.cancelled, _⟩, h) => (.cancelled, h)

end Scroll

end DocumentSearch
