import DocumentSearch.Answer.PagedList
import Mathlib.Data.List.Intervals
import Mathlib.Data.List.Nodup

/-!
# Walking through pages

A reader who wants all rows begins with the first page and goes on by the rows of a page as long as
there is a next one. How many pages there are, which page a row stands on and whether a page follows
are three formulas of their own. `walkFrom_eq_map` says where the pages of a walk begin, whatever
the number of rows and the size of a page; from that the formulas agree, and no row is left out or
met twice. Rows are counted without a bound, so this is the walk on machine words as long as no
`firstRow + maxRows` overflows.
-/

namespace DocumentSearch

namespace PagedList

variable {α : Type}

/-- The rows that a page stands for. -/
def window (p : PagedList α) : List Nat :=
  List.Ico p.firstRow (min (p.firstRow + p.maxRows) p.total)

theorem hasNext_iff (p : PagedList α) :
    p.hasNext = true ↔ 0 < p.maxRows ∧ p.firstRow + p.maxRows < p.total := by
  simp [hasNext]

theorem hasPrev_eq_false_iff (p : PagedList α) : p.hasPrev = false ↔ p.firstRow = 0 := by
  simp [hasPrev]

theorem totalPageCount_of_pos {p : PagedList α} (h : 0 < p.maxRows) :
    p.totalPageCount = (p.total + p.maxRows - 1) / p.maxRows :=
  if_neg (Nat.ne_of_gt h)

theorem pageIndex_of_pos {p : PagedList α} (h : 0 < p.maxRows) :
    p.pageIndex = p.firstRow / p.maxRows :=
  if_neg (Nat.ne_of_gt h)

section Walk

variable (total maxRows : Nat) (records : Nat → List α)

/-- The page that begins with `row`. -/
def beginningAt (row : Nat) : PagedList α := ⟨row, maxRows, records row, total⟩

/-- The pages that a reader comes to, from the one that begins with `row` on. -/
def walkFrom (row : Nat) : List (PagedList α) :=
  let page := beginningAt total maxRows records row
  if _more : page.hasNext then page :: walkFrom (row + maxRows) else [page]
termination_by total - row
decreasing_by
  have hmore := page.hasNext_iff.mp _more
  change 0 < maxRows ∧ row + maxRows < total at hmore
  omega

/-! ### How many pages -/

variable {total maxRows : Nat}

/-- A page is one of `n` rows exactly if it begins before the last of them. -/
theorem lt_pageCount_iff (hmax : 0 < maxRows) (k n : Nat) :
    k < (n + maxRows - 1) / maxRows ↔ k * maxRows < n := by
  have hcount := Nat.le_div_iff_mul_le hmax (x := k + 1) (y := n + maxRows - 1)
  rw [Nat.succ_mul] at hcount
  omega

theorem pageCount_of_le (hmax : 0 < maxRows) {n : Nat} (hpos : 0 < n) (hle : n ≤ maxRows) :
    (n + maxRows - 1) / maxRows = 1 := by
  have hfirst := lt_pageCount_iff hmax 0 n
  have hsecond := lt_pageCount_iff hmax 1 n
  omega

theorem pageCount_of_lt {n : Nat} (hmax : 0 < maxRows) (hlt : maxRows < n) :
    (n + maxRows - 1) / maxRows = (n - maxRows + maxRows - 1) / maxRows + 1 := by
  have hrows : n + maxRows - 1 = n - maxRows + maxRows - 1 + maxRows := by omega
  rw [hrows, Nat.add_div_right _ hmax]

/-! ### Where the pages begin -/

/-- The induction is on the rows that are left, as the walk goes on while more than a page of them
are. -/
theorem walkFrom_eq_map (hmax : 0 < maxRows) {row : Nat} (hrow : row < total) :
    walkFrom total maxRows records row =
      (List.range ((total - row + maxRows - 1) / maxRows)).map fun k =>
        beginningAt total maxRows records (row + k * maxRows) := by
  induction hleft : total - row using Nat.strongRecOn generalizing row with
  | ind left ih =>
    rw [walkFrom]
    by_cases hnext : row + maxRows < total
    · have hmore : (beginningAt total maxRows records row).hasNext :=
        (hasNext_iff _).mpr ⟨hmax, hnext⟩
      have hrest := ih (total - (row + maxRows)) (by omega) hnext rfl
      have hcount : total - (row + maxRows) = left - maxRows := by omega
      rw [dif_pos hmore, hrest, pageCount_of_lt hmax (by omega : maxRows < left), hcount,
        List.range_succ_eq_map, List.map_cons, List.map_map]
      congr 1
      · rw [Nat.zero_mul, Nat.add_zero]
      · apply List.map_congr_left
        intro k _
        rw [Function.comp_apply, Nat.succ_mul, Nat.add_comm (k * maxRows), Nat.add_assoc]
    · have hmore : ¬(beginningAt total maxRows records row).hasNext := by
        rw [hasNext_iff]
        exact fun h => hnext h.2
      rw [dif_neg hmore, pageCount_of_le hmax (by omega) (by omega)]
      simp

/-! ### Which rows they hold -/

/-- The first `n` windows side by side hold the rows before the page that would come next. -/
theorem flatMap_window_range (n : Nat) :
    (List.range n).flatMap (fun k => (beginningAt total maxRows records (k * maxRows)).window) =
      List.range (min (n * maxRows) total) := by
  induction n with
  | zero => simp
  | succ n ih =>
    have hwindow : (beginningAt total maxRows records (n * maxRows)).window =
        List.Ico (n * maxRows) (min (n * maxRows + maxRows) total) := rfl
    rw [List.range_succ, List.flatMap_append, ih, List.flatMap_singleton, hwindow, Nat.succ_mul,
      ← List.Ico.zero_bot, ← List.Ico.zero_bot]
    by_cases hover : total ≤ n * maxRows
    · rw [List.Ico.eq_nil_of_le (n := n * maxRows) (by omega), List.append_nil]
      congr 1
      omega
    · rw [Nat.min_eq_left (by omega : n * maxRows ≤ total)]
      exact List.Ico.append_consecutive (Nat.zero_le _) (by omega)

end Walk

/-- Pages of `maxRows` rows each, in order, for `total` rows: they know how many they are and which
of them they are, and their windows share the rows out among them. -/
structure Covers (pages : List (PagedList α)) (total maxRows : Nat) : Prop where
  sized : ∀ p ∈ pages, p.total = total ∧ p.maxRows = maxRows
  count : ∀ p ∈ pages, p.totalPageCount = pages.length
  begins : ∀ k (h : k < pages.length), pages[k].firstRow = k * maxRows
  index : ∀ k (h : k < pages.length), pages[k].pageIndex = k
  hasPrev : ∀ k (h : k < pages.length), pages[k].hasPrev = false ↔ k = 0
  hasNext : ∀ k (h : k < pages.length), pages[k].hasNext = false ↔ k + 1 = pages.length
  window_ne_nil : ∀ p ∈ pages, p.window ≠ []
  disjoint : pages.Pairwise fun p q => p.window.Disjoint q.window
  rows : pages.flatMap window = List.range total

section Covers

variable {total maxRows : Nat} (records : Nat → List α)

theorem window_ne_nil_of_lt (hmax : 0 < maxRows) {row : Nat} (hrow : row < total) :
    (beginningAt total maxRows records row).window ≠ [] := by
  intro hnil
  have hle := List.Ico.eq_empty_iff.mp hnil
  change min (row + maxRows) total ≤ row at hle
  omega

/-- As many pages as the first of them says, begun one page of rows after the other, cover the
rows. -/
theorem covers_of_eq_map (hmax : 0 < maxRows) {pages : List (PagedList α)}
    (hpages : pages = (List.range ((total + maxRows - 1) / maxRows)).map fun k =>
      beginningAt total maxRows records (k * maxRows)) : Covers pages total maxRows := by
  have hlength : pages.length = (total + maxRows - 1) / maxRows := by
    rw [hpages, List.length_map, List.length_range]
  have hbefore (k : Nat) : k < pages.length ↔ k * maxRows < total := by
    rw [hlength]
    exact lt_pageCount_iff hmax k total
  have hmem {p : PagedList α} (hp : p ∈ pages) :
      ∃ k, k * maxRows < total ∧ p = beginningAt total maxRows records (k * maxRows) := by
    rw [hpages] at hp
    obtain ⟨k, hk, rfl⟩ := List.mem_map.mp hp
    exact ⟨k, (lt_pageCount_iff hmax k total).mp (List.mem_range.mp hk), rfl⟩
  have hget (k : Nat) (h : k < pages.length) :
      pages[k] = beginningAt total maxRows records (k * maxRows) := by
    simp [hpages]
  have hrows : pages.flatMap window = List.range total := by
    have hlast := hbefore pages.length
    rw [hpages, List.flatMap_map, ← hlength]
    refine (flatMap_window_range records pages.length).trans ?_
    rw [Nat.min_eq_right (by omega)]
  constructor
  case sized =>
    intro p hp
    obtain ⟨k, -, rfl⟩ := hmem hp
    exact ⟨rfl, rfl⟩
  case count =>
    intro p hp
    obtain ⟨k, -, rfl⟩ := hmem hp
    rw [hlength]
    exact totalPageCount_of_pos hmax
  case begins =>
    intro k h
    rw [hget k h]
    rfl
  case index =>
    intro k h
    rw [hget k h, pageIndex_of_pos hmax]
    exact Nat.mul_div_cancel k hmax
  case hasPrev =>
    intro k h
    rw [hasPrev_eq_false_iff, hget k h]
    change k * maxRows = 0 ↔ k = 0
    rw [Nat.mul_eq_zero]
    exact or_iff_left (Nat.ne_of_gt hmax)
  case hasNext =>
    intro k h
    have hnext : pages[k].hasNext = true ↔ k + 1 < pages.length := by
      rw [hasNext_iff, hget k h, hbefore, Nat.succ_mul]
      exact and_iff_right hmax
    rw [← Bool.not_eq_true, hnext]
    omega
  case window_ne_nil =>
    intro p hp
    obtain ⟨k, hk, rfl⟩ := hmem hp
    exact window_ne_nil_of_lt records hmax hk
  case disjoint =>
    have hnodup : (pages.flatMap window).Nodup := by
      rw [hrows]
      exact List.nodup_range
    exact (List.nodup_flatMap.mp hnodup).2
  case rows => exact hrows

end Covers

/-- A walk that begins with the first row comes to an end and visits every row once. -/
theorem covers_walkFrom {total maxRows : Nat} (htotal : 0 < total) (hmax : 0 < maxRows)
    (records : Nat → List α) : Covers (walkFrom total maxRows records 0) total maxRows := by
  apply covers_of_eq_map records hmax
  rw [walkFrom_eq_map records hmax htotal]
  simp only [Nat.sub_zero, Nat.zero_add]

/-- Seven rows on pages of three: the last page has a single row. -/
theorem covers_walkFrom_sevenRows :
    0 < 7 ∧ 0 < 3 ∧
      (walkFrom 7 3 (fun row => [row]) 0).map window = [[0, 1, 2], [3, 4, 5], [6]] ∧
      Covers (walkFrom 7 3 (fun row => [row]) 0) 7 3 := by
  refine ⟨by decide, by decide, ?_, covers_walkFrom (by decide) (by decide) _⟩
  rw [walkFrom_eq_map _ (by decide) (by decide)]
  decide

/-- Six rows fill two such pages, and no empty page follows. -/
example : (walkFrom 6 3 (fun row => [row]) 0).map window = [[0, 1, 2], [3, 4, 5]] := by
  rw [walkFrom_eq_map _ (by decide) (by decide)]
  decide

end PagedList

end DocumentSearch
