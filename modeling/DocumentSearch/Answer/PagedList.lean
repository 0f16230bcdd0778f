/-!
# Paged lists

The rows that a request came back with, and where they stand among all rows. Rows are counted from
zero; a list without a limit is one page.
-/

namespace DocumentSearch

structure PagedList (α : Type) where
  firstRow : Nat
  maxRows : Nat
  records : List α
  total : Nat

namespace PagedList

variable {α : Type}

def totalPageCount (p : PagedList α) : Nat :=
  if p.maxRows = 0 then if 0 < p.total then 1 else 0
  else (p.total + p.maxRows - 1) / p.maxRows

/-- The page on which the first row stands. -/
def pageIndex (p : PagedList α) : Nat := if p.maxRows = 0 then 0 else p.firstRow / p.maxRows

def hasNext (p : PagedList α) : Bool := 0 < p.maxRows && p.firstRow + p.maxRows < p.total

def hasPrev (p : PagedList α) : Bool := 0 < p.firstRow

end PagedList

end DocumentSearch
