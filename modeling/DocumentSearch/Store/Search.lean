import DocumentSearch.Answer.PagedList
import DocumentSearch.Engine.Scroll
import DocumentSearch.Query.Compile
import DocumentSearch.Store.Config

/-!
# Searching and looking up

The requests of a store for documents. A request that has no query document makes no call. A list
takes one page, whatever more there is; a stream scrolls through all pages.
-/

namespace DocumentSearch

namespace Query

/-- The text of the query document; its length in bytes is measured. -/
def compileText (q : Query) : Action String :=
  (Action.ofExcept q.compile).thenDo fun j =>
    let text := j.write
    (Action.record (.queryBytes (Utf8.encode text).length)).thenDo fun _ => .done text

/-- The page that a request comes back with. -/
def fetchPage (q : Query) : Action (SearchPage Document) :=
  let m := q.recordType.mapping
  q.compileText.thenDo fun text =>
    (Action.call fun e => e.postQuery false m.docType m.index text).thenDo fun response =>
      (Action.ofExcept (response.content "404 for query?")).thenDo fun body =>
        (Action.ofExcept (SearchPage.parse (.forQuery q) body)).thenDo fun page =>
          (Action.record (.pageHits page.records.length)).thenDo fun _ => .done page

def findList (q : Query) : Action (List Document) :=
  (q.fetchPage.map SearchPage.records |>.observed .findList).timed .findList

def findPagedList (q : Query) : Action (PagedList Document) :=
  let list (page : SearchPage Document) : PagedList Document :=
    ⟨q.firstRow, q.maxRows, page.records, page.total⟩
  (q.fetchPage.map list |>.observed .findPagedList).timed .findPagedList

/-- Scrolls through the hits of a request. -/
def scroll {α : Type} (q : Query) (s : Scroll α) (h : Host) : Streamed α × Host :=
  let m := q.recordType.mapping
  match q.compileText h with
  | (.ok text, h) => s.run m.docType m.index text h
  | (.error e, h) => (⟨.error e, []⟩, h)
  | (.cancelled, h) => (⟨.cancelled, []⟩, h)

/-- Counts and times a stream. -/
def streamed {α : Type} (op : StoreOperation) (x : Host → Streamed α × Host) (h : Host) :
    Streamed α × Host :=
  let (result, h) := x h
  (result, (h.recordAll (Action.measurementsOf op result.outcome)).record (.latency op))

def findEach (q : Query) (config : StoreConfig) (stop : List Document → Bool) :
    Host → Streamed Document × Host :=
  streamed .findEach (q.scroll ⟨.forQuery q, stop, config.maxScrollRounds⟩)

def findEachRawSource (q : Query) (config : StoreConfig) (stop : List RawSource → Bool) :
    Host → Streamed RawSource × Host :=
  streamed .findEachRawSource (q.scroll ⟨RawSource.read, stop, config.maxScrollRounds⟩)

end Query

namespace RecordType

/-- The document that an answer to a lookup holds; one that is not found is none. -/
def readLookup (t : RecordType) (id : String) (r : Response) :
    Except StoreError (Option Document) :=
  match r.content s!"404 for docId:{id}" with
  | .ok body =>
    match t.readSource (Utf8.decode body) with
    | .ok d => .ok (some { d with id := some id })
    | .error e => .error e
  | .error e => if e.isNotFound then .ok none else .error e

/-- Looks a document up; it has the id it was looked up by. -/
def lookUp (t : RecordType) (id : Scalar) : Action (Option Document) :=
  let m := t.mapping
  (Action.call fun e => e.getDocSource m.docType m.index id.asText).thenDo
    fun response => .ofExcept (t.readLookup id.asText response)

/-- A lookup, counted and timed. -/
def getById (t : RecordType) (id : Scalar) : Action (Option Document) :=
  ((t.lookUp id).observed .getById).timed .getById

end RecordType

end DocumentSearch
