import DocumentSearch.Engine.Host

/-!
# Cursor sets

The cursors that a scroll has been given, each once, in the order in which they came. They are
released together with one call, at most once. The set counts as released when that call has come
back, with or without success. A set that is given up before then is released in the background,
which needs something to run it.
-/

namespace DocumentSearch

structure CursorSet where
  ids : List String
  released : Bool
  deriving DecidableEq, Repr

namespace CursorSet

def empty : CursorSet := ⟨[], false⟩

def add (c : CursorSet) (id : String) : CursorSet :=
  if id ∈ c.ids then c else { c with ids := c.ids ++ [id] }

def addAll (c : CursorSet) (ids : List String) : CursorSet := ids.foldl add c

/-- Calls for the release of all cursors; says whether the call came back. -/
def clear (c : CursorSet) (h : Host) : Bool × Host :=
  let (reply, engine) := h.engine.clearScrollIds c.ids
  let h := { h with engine := engine }
  match reply with
  | .done (.ok _) => (true, h.record (.cursorRelease c.ids.length true))
  | .done (.error _) => (true, h.record (.cursorRelease c.ids.length false))
  | .stalled => (false, h)

/-- Releases the cursors; says whether it came to an end. -/
def release (c : CursorSet) (h : Host) : Bool × CursorSet × Host :=
  if c.released then (true, c, h)
  else if c.ids = [] then (true, { c with released := true }, h)
  else
    let (back, h) := c.clear h
    (back, { c with released := back }, h)

/-- Gives the set up. Cursors that are not released are released in the background if there is
something to run it, and otherwise left to expire. -/
def abandon (c : CursorSet) (background : Bool) (h : Host) : Host :=
  if c.released ∨ c.ids = [] ∨ ¬background then h else (c.clear h).2

end CursorSet

end DocumentSearch
