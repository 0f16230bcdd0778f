import DocumentSearch.Engine.Basic
import DocumentSearch.Engine.Folder
import DocumentSearch.Engine.Metrics

/-!
# Actions

A store acts on its host: the engine it calls, the log of its measurements, and the folder of its
mapping files. An action ends with a value or an error, or it is cancelled at a call that never
came back; then nothing after that call happens.
-/

namespace DocumentSearch

structure Host where
  engine : Engine
  log : List Measurement
  folder : Folder

inductive Outcome (α : Type) where
  | ok (a : α)
  | error (e : StoreError)
  | cancelled

def Outcome.ofExcept {α : Type} : Except StoreError α → Outcome α
  | .ok a => .ok a
  | .error e => .error e

namespace Host

def blank : Host := ⟨.blank, [], .blank⟩

def record (h : Host) (m : Measurement) : Host := { h with log := h.log ++ [m] }

def recordAll (h : Host) (ms : List Measurement) : Host := { h with log := h.log ++ ms }

end Host

abbrev Action (α : Type) := Host → Outcome α × Host

namespace Action

variable {α β : Type}

def done (a : α) : Action α := fun h => (.ok a, h)

def fail (e : StoreError) : Action α := fun h => (.error e, h)

/-- Goes on with the value of an action, if it has one. -/
def thenDo (x : Action α) (f : α → Action β) : Action β := fun h =>
  match x h with
  | (.ok a, h) => f a h
  | (.error e, h) => (.error e, h)
  | (.cancelled, h) => (.cancelled, h)

def map (f : α → β) (x : Action α) : Action β := x.thenDo fun a => done (f a)

def ofExcept (r : Except StoreError α) : Action α := fun h => (.ofExcept r, h)

def record (m : Measurement) : Action Unit := fun h => (.ok (), h.record m)

/-- Calls the engine. -/
def call (f : Engine → Reply α × Engine) : Action α := fun h =>
  let (reply, engine) := f h.engine
  let h := { h with engine := engine }
  match reply with
  | .done (.ok a) => (.ok a, h)
  | .done (.error e) => (.error (.transport e), h)
  | .stalled => (.cancelled, h)

/-- The measurements of an operation that ended. -/
def measurementsOf (op : StoreOperation) : Outcome α → List Measurement
  | .ok _ => [.operation op true]
  | .error e => [.operation op false, .error op e.kind]
  | .cancelled => []

/-- Counts how an operation ends; a cancelled one is not counted. -/
def observed (op : StoreOperation) (x : Action α) : Action α := fun h =>
  let (outcome, h) := x h
  (outcome, h.recordAll (measurementsOf op outcome))

/-- Measures how long an operation takes, however it ends. -/
def timed (op : StoreOperation) (x : Action α) : Action α := fun h =>
  let (outcome, h) := x h
  (outcome, h.record (.latency op))

end Action

end DocumentSearch
