import DocumentSearch.Answer.ResultPage

/-!
# A scripted engine

An engine that answers searches from a script. Searches and continuations take the next response of
one queue, whatever they ask for; documents and indexes are kept by name; every call that arrives
is recorded. Before it arrives, a call can be made to fail or to stall: each planned interruption
is spent on the next call of its kind.
-/

namespace DocumentSearch

structure Response where
  status : Nat
  body : List UInt8
  deriving DecidableEq, Repr

namespace Response

def ok (body : List UInt8) : Response := ⟨200, body⟩

def notFound : Response := ⟨404, []⟩

def text (r : Response) : String := Utf8.lossy r.body

/-- The body of a successful answer; `context` says what was not found. -/
def content (r : Response) (context : String) : Except StoreError (List UInt8) :=
  if r.status = 200 then .ok r.body
  else if r.status = 404 then .error (.notFound context)
  else .error (.unexpectedStatus r.status r.text)

end Response

/-- What the queue holds for a search. -/
inductive Scripted where
  | response (r : Response)
  | failure (reason : String)
  deriving DecidableEq, Repr

inductive Method where
  | postQuery
  | getScroll
  | getDocSource
  | clearScrollIds
  | indexExists
  | indexCreate
  | indexDelete
  | indexAlias
  deriving DecidableEq, Repr

inductive Call where
  | postQuery (scroll : Bool) (docType index body : String)
  | getScroll (cursor : String)
  | getDocSource (docType index id : String)
  | clearScrollIds (cursors : List String)
  | indexExists (index : String)
  | indexCreate (index body : String)
  | indexDelete (index : String)
  | indexAlias (body : String)
  deriving DecidableEq, Repr

def Call.method : Call → Method
  | .postQuery .. => .postQuery
  | .getScroll _ => .getScroll
  | .getDocSource .. => .getDocSource
  | .clearScrollIds _ => .clearScrollIds
  | .indexExists _ => .indexExists
  | .indexCreate .. => .indexCreate
  | .indexDelete _ => .indexDelete
  | .indexAlias _ => .indexAlias

/-- What happens to a call on its way. -/
inductive Interruption where
  | pass
  | fail (e : TransportError)
  | stall
  deriving DecidableEq, Repr

structure Engine where
  responses : List Scripted
  documents : List (String × Response)
  indexes : List String
  refusesRelease : Bool
  plans : List (Method × Interruption)
  /-- The calls that arrived, in order. -/
  calls : List Call
  deriving DecidableEq, Repr

/-- What becomes of a call: an answer, an error, or nothing at all. -/
inductive Reply (α : Type) where
  | done (result : Except TransportError α)
  | stalled

namespace Engine

variable {α : Type}

def blank : Engine := ⟨[], [], [], false, [], []⟩

/-! ### The script -/

def pushResponse (e : Engine) (r : Response) : Engine :=
  { e with responses := e.responses ++ [.response r] }

def pushFailure (e : Engine) (reason : String) : Engine :=
  { e with responses := e.responses ++ [.failure reason] }

/-- Answers a search with a page of hits. -/
def pushPage (e : Engine) (total : Nat) (cursor : Option String) (hits : List Json) : Engine :=
  e.pushResponse (.ok (ResultPage.envelope total cursor hits).bytes)

def putResponse (e : Engine) (id : String) (r : Response) : Engine :=
  { e with documents := (id, r) :: e.documents }

def putDocument (e : Engine) (id : String) (source : Json) : Engine :=
  e.putResponse id (.ok source.bytes)

def addIndex (e : Engine) (index : String) : Engine :=
  if index ∈ e.indexes then e else { e with indexes := e.indexes ++ [index] }

def removeIndex (e : Engine) (index : String) : Engine :=
  { e with indexes := e.indexes.filter (· ≠ index) }

def hasIndex (e : Engine) (index : String) : Bool := index ∈ e.indexes

def plan (e : Engine) (m : Method) (i : Interruption) : Engine :=
  { e with plans := e.plans ++ [(m, i)] }

/-! ### What has been asked -/

/-- The cursors of each release, in order. -/
def released (e : Engine) : List (List String) :=
  e.calls.filterMap fun
    | .clearScrollIds cursors => some cursors
    | _ => none

/-- The bodies of the searches, in order. -/
def posted (e : Engine) : List String :=
  e.calls.filterMap fun
    | .postQuery _ _ _ body => some body
    | _ => none

/-! ### Calls -/

/-- The interruption planned for the next call of a method, and the plans after it. -/
def nextPlan (m : Method) :
    List (Method × Interruption) → Interruption × List (Method × Interruption)
  | [] => (.pass, [])
  | (m', i) :: rest =>
    if m' = m then (i, rest)
    else
      let (i', rest) := nextPlan m rest
      (i', (m', i) :: rest)

/-- Makes a call. One that is interrupted is not recorded and changes nothing else. -/
def call (e : Engine) (c : Call) (answer : Engine → Except TransportError α × Engine) :
    Reply α × Engine :=
  let (interruption, plans) := nextPlan c.method e.plans
  let e := { e with plans := plans }
  match interruption with
  | .fail reason => (.done (.error reason), e)
  | .stall => (.stalled, e)
  | .pass =>
    let (result, e) := answer { e with calls := e.calls ++ [c] }
    (.done result, e)

/-- Takes the next response of the queue. -/
def nextResponse (e : Engine) : Except TransportError Response × Engine :=
  match e.responses with
  | [] => (.error (.connection "no scripted response left"), e)
  | .response r :: rest => (.ok r, { e with responses := rest })
  | .failure reason :: rest => (.error (.connection reason), { e with responses := rest })

def postQuery (e : Engine) (scroll : Bool) (docType index body : String) :
    Reply Response × Engine :=
  e.call (.postQuery scroll docType index body) nextResponse

def getScroll (e : Engine) (cursor : String) : Reply Response × Engine :=
  e.call (.getScroll cursor) nextResponse

def getDocSource (e : Engine) (docType index id : String) : Reply Response × Engine :=
  e.call (.getDocSource docType index id) fun e =>
    (.ok ((e.documents.lookup id).getD .notFound), e)

def clearScrollIds (e : Engine) (cursors : List String) : Reply Unit × Engine :=
  e.call (.clearScrollIds cursors) fun e =>
    (if e.refusesRelease then .error (.connection "clear scroll refused") else .ok (), e)

def indexExists (e : Engine) (index : String) : Reply Bool × Engine :=
  e.call (.indexExists index) fun e => (.ok (e.hasIndex index), e)

def indexCreate (e : Engine) (index body : String) : Reply Unit × Engine :=
  e.call (.indexCreate index body) fun e => (.ok (), e.addIndex index)

def indexDelete (e : Engine) (index : String) : Reply Unit × Engine :=
  e.call (.indexDelete index) fun e => (.ok (), e.removeIndex index)

def indexAlias (e : Engine) (body : String) : Reply Unit × Engine :=
  e.call (.indexAlias body) fun e => (.ok (), e)

/-! ### The queue gets shorter -/

theorem length_responses_of_nextResponse_ok {e e' : Engine} {r : Response}
    (h : e.nextResponse = (.ok r, e')) : e'.responses.length < e.responses.length := by
  unfold nextResponse at h
  split at h
  next => simp at h
  next first rest queue =>
    obtain ⟨-, rfl⟩ := Prod.mk.inj h
    simp [queue]
  next => simp at h

/-- A continuation that is answered takes a response from the queue. -/
theorem length_responses_of_getScroll_ok {e e' : Engine} {cursor : String} {r : Response}
    (h : e.getScroll cursor = (.done (.ok r), e')) :
    e'.responses.length < e.responses.length := by
  unfold getScroll call at h
  split at h
  next interruption plans _ =>
    cases interruption with
    | pass =>
      simp only [Prod.mk.injEq, Reply.done.injEq] at h
      have shorter := length_responses_of_nextResponse_ok (Prod.ext h.1 h.2)
      exact shorter
    | fail e => simp at h
    | stall => simp at h

end Engine

end DocumentSearch
