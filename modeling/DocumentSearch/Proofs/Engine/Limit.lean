import DocumentSearch.Proofs.Engine.Session

/-!
# The bound on rounds

A bound stops a scroll when it would make one continuation more than it may, and at no other place.
Which scripts bring it there is said of the script: its first pages, one more than the bound, all
promise more, and each but the last has a cursor. A scroll that its bound does not stop is the same
scroll with a larger bound or with none.
-/

namespace DocumentSearch

/-- A page by which there is more to come. -/
def SearchPage.PromisesMore {α : Type} (page : SearchPage α) : Prop :=
  page.allHitsRead = false ∧ page.zeroHits = false

namespace Course

variable {α : Type}

/-- The bound whose error ends a course. -/
def bound? (c : Course α) : Option Nat :=
  match c.ending with
  | .error (.roundsExceeded limit) => some limit
  | _ => none

theorem ending_eq_exceeded_iff {c : Course α} {limit : Nat} :
    c.ending = .error (.roundsExceeded limit) ↔ c.bound? = some limit := by
  rw [bound?]
  split
  next other h => simp [h]
  next h =>
    constructor
    · exact fun hending => absurd hending (h limit)
    · exact fun hnone => by cases hnone

end Course

namespace Scroll

variable {α : Type} {s : Scroll α} {limit left rounds : Nat} {given : List α}
  {page : SearchPage α}

/-! ### Turns under a bound -/

theorem turn_of_over (h : ¬(page.PromisesMore ∧ (handOut s.stop given page.records).2 = false)) :
    s.turn rounds given page = .finished := by
  unfold turn turnAfter
  by_cases hstop : (handOut s.stop given page.records).2 = true
  · rw [if_pos hstop]
  · have hover : (page.allHitsRead || page.zeroHits) = true := by
      by_contra hmore
      rw [Bool.not_eq_true, Bool.or_eq_false_iff] at hmore
      exact h ⟨hmore, Bool.not_eq_true _ ▸ hstop⟩
    rw [if_neg hstop, if_pos hover]

theorem turn_eq_turnAfter (hmore : page.PromisesMore)
    (htaken : (handOut s.stop given page.records).2 = false) :
    s.turn rounds given page =
      match s.atLimit rounds, page.cursor with
      | some limit, _ => .failed (.roundsExceeded limit)
      | none, none => .failed (.malformed .noCursor)
      | none, some cursor => .next cursor := by
  have hlast : ¬(page.allHitsRead || page.zeroHits) = true := by
    rw [hmore.1, hmore.2]
    decide
  have hafter : s.turn rounds given page = s.turnAfter rounds page := by
    rw [turn, if_neg (by rw [htaken]; decide)]
  exact hafter.trans (if_neg hlast)

theorem turn_of_limit (hmax : s.maxRounds = some limit) (hmore : page.PromisesMore)
    (htaken : (handOut s.stop given page.records).2 = false) :
    s.turn limit given page = .failed (.roundsExceeded limit) := by
  have hlimit : s.atLimit limit = some limit := by simp [atLimit, hmax]
  rw [turn_eq_turnAfter hmore htaken, hlimit]

/-- Below its bound a scroll goes on with the cursor of the page, if there is one. -/
theorem turn_of_below (hbelow : ∀ limit, s.maxRounds = some limit → rounds < limit)
    (hmore : page.PromisesMore) (htaken : (handOut s.stop given page.records).2 = false) :
    s.turn rounds given page =
      match page.cursor with
      | none => .failed (.malformed .noCursor)
      | some cursor => .next cursor := by
  have hlimit : s.atLimit rounds = none := by
    rw [atLimit]
    cases hmax : s.maxRounds with
    | none => rfl
    | some limit =>
      have := hbelow limit hmax
      have hfree : ¬limit ≤ rounds := by omega
      simp [hfree]
  rw [turn_eq_turnAfter hmore htaken, hlimit]
  cases page.cursor <;> rfl

/-- A scroll goes on only after a page that promises more and is taken to its end, and only below
its bound. -/
theorem goesOn_of_next {cursor : String} (h : s.turn rounds given page = .next cursor) :
    page.PromisesMore ∧ (handOut s.stop given page.records).2 = false ∧
      ∀ limit, s.maxRounds = some limit → rounds < limit := by
  by_cases hgoes : page.PromisesMore ∧ (handOut s.stop given page.records).2 = false
  · refine ⟨hgoes.1, hgoes.2, fun limit hmax => ?_⟩
    by_contra hover
    have hlimit : s.atLimit rounds = some limit := by
      have hle : limit ≤ rounds := by omega
      simp [atLimit, hmax, hle]
    rw [turn_eq_turnAfter hgoes.1 hgoes.2, hlimit] at h
    cases h
  · rw [turn_of_over hgoes] at h
    cases h

/-! ### Scripts that go on -/

/-- The script begins with these pages, all of which promise more, and the consumer stops on none of
their records after those of `given`. -/
structure Passes (s : Scroll α) (given : List α) (script : List Scripted)
    (pages : List (SearchPage α)) : Prop where
  answers_eq : (script.take pages.length).map (accepted s.read) = pages.map some
  more : ∀ page ∈ pages, page.PromisesMore
  taken : ∀ first, first ≠ [] → first <+: pages.flatMap SearchPage.records →
    s.stop (given ++ first) = false

/-- The script promises more on one page more than may be asked for, when there are `left`
continuations to go. The last of these pages needs no cursor. -/
structure Overruns (s : Scroll α) (left : Nat) (given : List α) (script : List Scripted)
    (pages : List (SearchPage α)) : Prop where
  length_eq : pages.length = left + 1
  passes : s.Passes given script pages
  cursor : ∀ page ∈ pages.take left, page.cursor ≠ none

/-- Within `left` continuations the script comes to a page of which a hit cannot be read, and `e` is
what the reader of hits says of it. -/
def BreaksWith (s : Scroll α) (e : StoreError) (left : Nat) (given : List α)
    (script : List Scripted) (pages : List (SearchPage α)) : Prop :=
  pages.length ≤ left ∧ s.Passes given script pages ∧ (∀ page ∈ pages, page.cursor ≠ none) ∧
    ∃ r found, script[pages.length]? = some (.response r) ∧ r.status = 200 ∧
      ResultPage.parse r.body = .ok found ∧ readHits s.read found.hits = .error e

theorem passes_nil (given : List α) (script : List Scripted) : s.Passes given script [] :=
  ⟨rfl, fun _ h => absurd h List.not_mem_nil, taken_iff.mp rfl⟩

theorem passes_cons_iff {item : Scripted} {script : List Scripted}
    {pages : List (SearchPage α)} :
    s.Passes given (item :: script) (page :: pages) ↔
      accepted s.read item = some page ∧ page.PromisesMore ∧
        (handOut s.stop given page.records).2 = false ∧
        s.Passes (given ++ page.records) script pages := by
  constructor
  · rintro ⟨hanswers, hmore, htaken⟩
    rw [List.length_cons, List.take_succ_cons, List.map_cons, List.map_cons, List.cons.injEq]
      at hanswers
    rw [← taken_iff, List.flatMap_cons, taken_append] at htaken
    rw [List.forall_mem_cons] at hmore
    exact ⟨hanswers.1, hmore.1, htaken.1, hanswers.2, hmore.2, taken_iff.mp htaken.2⟩
  · rintro ⟨hitem, hmore, htaken, hanswers, hothers, hrest⟩
    refine ⟨?_, List.forall_mem_cons.mpr ⟨hmore, hothers⟩, ?_⟩
    · rw [List.length_cons, List.take_succ_cons, List.map_cons, List.map_cons, hitem, hanswers]
    · rw [← taken_iff, List.flatMap_cons, taken_append]
      exact ⟨htaken, taken_iff.mpr hrest⟩

theorem passes_append {script : List Scripted} {pages others : List (SearchPage α)}
    (h : s.Passes given script (pages ++ others)) :
    s.Passes given script pages ∧
      s.Passes (given ++ pages.flatMap SearchPage.records) (script.drop pages.length) others := by
  induction pages generalizing given script with
  | nil =>
    refine ⟨passes_nil given script, ?_⟩
    simpa using h
  | cons page rest ih =>
    cases script with
    | nil =>
      have hanswers := h.answers_eq
      simp at hanswers
    | cons item script =>
      obtain ⟨hitem, hmore, htaken, hrest⟩ := passes_cons_iff.mp h
      obtain ⟨hfirst, hothers⟩ := ih hrest
      refine ⟨passes_cons_iff.mpr ⟨hitem, hmore, htaken, hfirst⟩, ?_⟩
      rw [List.flatMap_cons, ← List.append_assoc]
      exact hothers

theorem overruns_zero {item : Scripted} {script : List Scripted}
    (haccepted : accepted s.read item = some page) (hmore : page.PromisesMore)
    (htaken : (handOut s.stop given page.records).2 = false) :
    s.Overruns 0 given (item :: script) [page] :=
  ⟨rfl, passes_cons_iff.mpr ⟨haccepted, hmore, htaken, passes_nil _ script⟩,
    fun _ h => absurd h List.not_mem_nil⟩

theorem Overruns.cons {item : Scripted} {script : List Scripted} {pages : List (SearchPage α)}
    (h : s.Overruns left (given ++ page.records) script pages)
    (haccepted : accepted s.read item = some page) (hmore : page.PromisesMore)
    (htaken : (handOut s.stop given page.records).2 = false) (hcursor : page.cursor ≠ none) :
    s.Overruns (left + 1) given (item :: script) (page :: pages) := by
  refine ⟨congrArg (· + 1) h.length_eq, passes_cons_iff.mpr ⟨haccepted, hmore, htaken, h.passes⟩, ?_⟩
  rw [List.take_succ_cons, List.forall_mem_cons]
  exact ⟨hcursor, h.cursor⟩

theorem BreaksWith.cons {e : StoreError} {item : Scripted} {script : List Scripted}
    {pages : List (SearchPage α)} (h : s.BreaksWith e left (given ++ page.records) script pages)
    (haccepted : accepted s.read item = some page) (hmore : page.PromisesMore)
    (htaken : (handOut s.stop given page.records).2 = false) (hcursor : page.cursor ≠ none) :
    s.BreaksWith e (left + 1) given (item :: script) (page :: pages) := by
  obtain ⟨hlength, hpasses, hcursors, hread⟩ := h
  exact ⟨Nat.succ_le_succ hlength, passes_cons_iff.mpr ⟨haccepted, hmore, htaken, hpasses⟩,
    List.forall_mem_cons.mpr ⟨hcursor, hcursors⟩, hread⟩

/-! ### Where the bound stops a course -/

/-- The error of an answer without a page is the bound's own only if a hit is read with it. -/
theorem pageOf_eq_exceeded_iff {context : String} {r : Response} :
    s.pageOf context r = .error (.roundsExceeded limit) ↔
      r.status = 200 ∧ ∃ found, ResultPage.parse r.body = .ok found ∧
        readHits s.read found.hits = .error (.roundsExceeded limit) := by
  rw [pageOf, Response.content]
  by_cases hok : r.status = 200
  · simp only [hok, if_true, SearchPage.parse]
    cases hparse : ResultPage.parse r.body with
    | error e =>
      have hkind : e ≠ .roundsExceeded limit := by
        rintro rfl
        rw [ResultPage.parse] at hparse
        split at hparse <;> cases hparse
      simp [hkind]
    | ok found =>
      cases hread : readHits s.read found.hits <;> simp [ResultPage.materialize, hread]
  · by_cases hmissing : r.status = 404 <;> simp [hok, hmissing]

theorem pageOf_of_accepted {r : Response} (h : accepted s.read (.response r) = some page)
    (context : String) : s.pageOf context r = .ok page := by
  rw [accepted_response context] at h
  cases hpage : s.pageOf context r with
  | error e => simp [hpage, Except.toOption] at h
  | ok found => simpa [hpage, Except.toOption] using h

/-- Below its bound a course passes all that a script passes. -/
theorem follow_of_passes {script : List Scripted} {pages : List (SearchPage α)}
    (hpasses : s.Passes given script pages) (hcursor : ∀ page ∈ pages, page.cursor ≠ none)
    (hroom : ∀ limit, s.maxRounds = some limit → rounds + pages.length ≤ limit)
    (context : String) :
    ∃ context' c, c = s.follow context' (rounds + pages.length)
        (given ++ pages.flatMap SearchPage.records) (script.drop pages.length) ∧
      (s.follow context rounds given script).pages = pages ++ c.pages ∧
      (s.follow context rounds given script).ending = c.ending := by
  induction pages generalizing context rounds given script with
  | nil => exact ⟨context, _, rfl, by simp, by simp⟩
  | cons page rest ih =>
    cases script with
    | nil =>
      have hanswers := hpasses.answers_eq
      simp at hanswers
    | cons item script =>
      obtain ⟨hitem, hmore, htaken, hrest⟩ := passes_cons_iff.mp hpasses
      obtain ⟨hfirst, hothers⟩ := List.forall_mem_cons.mp hcursor
      cases item with
      | failure reason => cases hitem
      | response r =>
        obtain ⟨cursor, hcursor⟩ := Option.ne_none_iff_exists'.mp hfirst
        have hpage := pageOf_of_accepted hitem context
        obtain ⟨hbelow, hthen⟩ := room_cons hroom
        have hturn : s.turn rounds given page = .next cursor := by
          rw [turn_of_below hbelow hmore htaken, hcursor]
        obtain ⟨context', c, hc, hpages, hending⟩ :=
          ih hrest hothers hthen s!"404 for scrollId:{cursor}"
        have hfollow : s.follow context rounds given (.response r :: script) =
            (s.follow s!"404 for scrollId:{cursor}" (rounds + 1) (given ++ page.records)
              script).preceded page cursor := by
          simp only [follow, hpage, hturn, handOut_of_taken htaken]
        refine ⟨context', c, ?_, ?_, ?_⟩
        · rw [hc]
          simp [Nat.add_comm, Nat.add_left_comm]
        · rw [hfollow, Course.preceded, hpages, List.cons_append]
        · rw [hfollow, Course.preceded, hending]

theorem follow_of_overruns {script : List Scripted} {pages : List (SearchPage α)}
    (hmax : s.maxRounds = some limit) (hleft : rounds + left = limit)
    (h : s.Overruns left given script pages) (context : String) :
    (s.follow context rounds given script).pages = pages ∧
      (s.follow context rounds given script).ending = .error (.roundsExceeded limit) := by
  obtain ⟨hlength, hpasses, hcursor⟩ := h
  have hsplit : pages = pages.take left ++ [pages[left]] := by
    rw [List.take_append_getElem, ← hlength, List.take_length]
  generalize hlast : pages[left] = last at hsplit
  have htake : (pages.take left).length = left := by
    rw [List.length_take]
    omega
  rw [hsplit] at hpasses
  obtain ⟨hfirst, hend⟩ := passes_append hpasses
  have hroom : ∀ bound, s.maxRounds = some bound →
      rounds + (pages.take left).length ≤ bound := by
    intro bound hbound
    obtain rfl : limit = bound := Option.some.inj (hmax.symm.trans hbound)
    omega
  obtain ⟨context', c, hc, hpages, hending⟩ := follow_of_passes hfirst hcursor hroom context
  rw [htake, hleft] at hc
  rw [htake] at hend
  cases hrest : script.drop left with
  | nil =>
    have hanswers := hend.answers_eq
    simp [hrest] at hanswers
  | cons item rest =>
    rw [hrest] at hc hend
    obtain ⟨hitem, hmore, htaken, -⟩ := passes_cons_iff.mp hend
    cases item with
    | failure reason => cases hitem
    | response r =>
      have hpage := pageOf_of_accepted hitem context'
      have hturn := turn_of_limit hmax hmore htaken
      have hc' : c = ⟨[last], [], .error (.roundsExceeded limit)⟩ := by
        rw [hc]
        simp only [follow, hpage, hturn]
      rw [hpages, hending, hc']
      exact ⟨hsplit.symm, rfl⟩

theorem ending_of_breaksWith {e : StoreError} {script : List Scripted}
    {pages : List (SearchPage α)} (hmax : s.maxRounds = some limit)
    (hleft : rounds + left = limit) (h : s.BreaksWith e left given script pages)
    (context : String) : (s.follow context rounds given script).ending = .error e := by
  obtain ⟨hlength, hpasses, hcursor, r, found, hitem, hstatus, hparse, hread⟩ := h
  have hroom : ∀ bound, s.maxRounds = some bound → rounds + pages.length ≤ bound := by
    intro bound hbound
    obtain rfl : limit = bound := Option.some.inj (hmax.symm.trans hbound)
    omega
  obtain ⟨context', c, hc, -, hending⟩ := follow_of_passes hpasses hcursor hroom context
  obtain ⟨hlt, hget⟩ := List.getElem?_eq_some_iff.mp hitem
  have hpage : s.pageOf context' r = .error e := by
    rw [pageOf, Response.content, if_pos hstatus]
    simp only [SearchPage.parse, hparse, ResultPage.materialize, hread]
  rw [hending, hc, List.drop_eq_getElem_cons hlt, hget]
  simp only [follow, hpage]

/-- A course that ends with the error of the bound was stopped by the bound, or by a reader of hits
that says the same of a hit. The induction is on the script, and the continuations that are left
count down with it. -/
theorem exceeds_of_ending {script : List Scripted} (hmax : s.maxRounds = some limit)
    (hleft : rounds + left = limit) (context : String)
    (h : (s.follow context rounds given script).ending = .error (.roundsExceeded limit)) :
    (∃ pages, s.Overruns left given script pages) ∨
      ∃ pages, s.BreaksWith (.roundsExceeded limit) left given script pages := by
  induction script generalizing context rounds left given with
  | nil => cases h
  | cons item rest ih =>
    cases item with
    | failure reason => cases h
    | response r =>
      rcases s.follow_cases context rounds given r rest with
        ⟨e, hpage, hfollow⟩ | ⟨page, ending, hpage, hturn, hfollow⟩ |
        ⟨page, cursor, hpage, hturn, hfollow⟩
      · rw [hfollow] at h
        obtain rfl := Except.error.inj h
        obtain ⟨hstatus, found, hparse, hread⟩ := pageOf_eq_exceeded_iff.mp hpage
        exact .inr ⟨[], Nat.zero_le left, passes_nil given _, fun _ h => absurd h List.not_mem_nil,
          r, found, rfl, hstatus, hparse, hread⟩
      · rw [hfollow] at h
        obtain rfl : ending = .error (.roundsExceeded limit) := h
        by_cases hgoes : page.PromisesMore ∧ (handOut s.stop given page.records).2 = false
        · obtain ⟨hmore, htaken⟩ := hgoes
          cases left with
          | zero => exact .inl ⟨[page], overruns_zero (accepted_of_ok hpage) hmore htaken⟩
          | succ left =>
            rw [turn_of_below _ hmore htaken] at hturn
            · cases hcursor : page.cursor <;> simp [hcursor, Turn.ending?] at hturn
            · intro bound hbound
              obtain rfl : limit = bound := Option.some.inj (hmax.symm.trans hbound)
              omega
        · rw [turn_of_over hgoes] at hturn
          cases hturn
      · obtain ⟨hmore, htaken, hbelow⟩ := goesOn_of_next hturn
        have haccepted := accepted_of_ok hpage
        have hcursor : page.cursor ≠ none := by simp [cursor_of_next hturn]
        have hlt := hbelow limit hmax
        obtain ⟨left, rfl⟩ : ∃ n, left = n + 1 := ⟨left - 1, by omega⟩
        rw [hfollow, Course.preceded, handOut_of_taken htaken] at h
        have hless : rounds + 1 + left = limit := by omega
        rcases ih hless _ h with ⟨pages, hover⟩ | ⟨pages, hbreaks⟩
        · exact .inl ⟨page :: pages, hover.cons haccepted hmore htaken hcursor⟩
        · exact .inr ⟨page :: pages, hbreaks.cons haccepted hmore htaken hcursor⟩

/-! ### Continuations under a bound -/

theorem length_asked_le {script : List Scripted} (hmax : s.maxRounds = some limit)
    (hrounds : rounds ≤ limit) (context : String) :
    rounds + (s.follow context rounds given script).asked.length ≤ limit := by
  induction script generalizing context rounds given with
  | nil => exact hrounds
  | cons item rest ih =>
    cases item with
    | failure reason => exact hrounds
    | response r =>
      rcases s.follow_cases context rounds given r rest with
        ⟨e, -, hfollow⟩ | ⟨page, ending, -, -, hfollow⟩ | ⟨page, cursor, -, hturn, hfollow⟩
      · rw [hfollow]
        exact hrounds
      · rw [hfollow]
        exact hrounds
      · obtain ⟨-, -, hbelow⟩ := goesOn_of_next hturn
        have hnext : rounds + 1 ≤ limit := hbelow limit hmax
        have hrest := @ih (rounds + 1) (handOut s.stop given page.records).1 hnext
          s!"404 for scrollId:{cursor}"
        rw [hfollow, Course.preceded, List.length_cons]
        omega

/-- The scroll with another bound, or with none. -/
def bounded (s : Scroll α) (bound : Option Nat) : Scroll α := { s with maxRounds := bound }

theorem turn_bounded {bound : Option Nat} (hmax : s.maxRounds = some limit)
    (hbound : ∀ other, bound = some other → limit ≤ other)
    (h : s.turn rounds given page ≠ .failed (.roundsExceeded limit)) :
    (s.bounded bound).turn rounds given page = s.turn rounds given page := by
  by_cases hgoes : page.PromisesMore ∧ (handOut s.stop given page.records).2 = false
  · obtain ⟨hmore, htaken⟩ := hgoes
    have hbelow : rounds < limit := by
      by_contra hover
      have hlimit : s.atLimit rounds = some limit := by
        have hle : limit ≤ rounds := by omega
        simp [atLimit, hmax, hle]
      rw [turn_eq_turnAfter hmore htaken, hlimit] at h
      exact h rfl
    rw [turn_of_below (s := s) _ hmore htaken, turn_of_below (s := s.bounded bound) _ hmore htaken]
    · intro other hother
      exact Nat.lt_of_lt_of_le hbelow (hbound other hother)
    · intro other hother
      obtain rfl : limit = other := Option.some.inj (hmax.symm.trans hother)
      exact hbelow
  · rw [turn_of_over hgoes, turn_of_over (s := s.bounded bound) hgoes]

/-- Two scrolls that differ in their bounds keep step with each other until the smaller bound is
reached. -/
theorem follow_bounded {bound : Option Nat} {script : List Scripted}
    (hmax : s.maxRounds = some limit) (hbound : ∀ other, bound = some other → limit ≤ other)
    (context : String)
    (h : (s.follow context rounds given script).ending ≠ .error (.roundsExceeded limit)) :
    (s.bounded bound).follow context rounds given script =
      s.follow context rounds given script := by
  induction script generalizing context rounds given with
  | nil => rfl
  | cons item rest ih =>
    cases item with
    | failure reason => rfl
    | response r =>
      have hsame : (s.bounded bound).pageOf context r = s.pageOf context r := rfl
      rcases s.follow_cases context rounds given r rest with
        ⟨e, hpage, hfollow⟩ | ⟨page, ending, hpage, hturn, hfollow⟩ |
        ⟨page, cursor, hpage, hturn, hfollow⟩
      · simp only [follow, hsame, hpage]
      · have hkept : s.turn rounds given page ≠ .failed (.roundsExceeded limit) := by
          intro hexceeded
          rw [hexceeded] at hturn
          rw [hfollow] at h
          exact h (Option.some.inj hturn).symm
        have hboth := turn_bounded hmax hbound hkept
        cases hcase : s.turn rounds given page with
        | next cursor => simp [hcase, Turn.ending?] at hturn
        | finished => simp only [follow, hsame, hpage, hboth, hcase]
        | failed e => simp only [follow, hsame, hpage, hboth, hcase]
      · have hboth : (s.bounded bound).turn rounds given page = s.turn rounds given page :=
          turn_bounded hmax hbound (by rw [hturn]; simp)
        rw [hfollow] at h
        simp only [follow, hsame, hpage, hboth, hturn]
        exact congrArg (Course.preceded · page cursor) (ih _ h)

/-! ### Sessions under a bound -/

theorem exists_of_readHits_error {read : Materializer α} {hits : List Hit} {e : StoreError}
    (h : readHits read hits = .error e) : ∃ hit ∈ hits, read hit = .error e := by
  induction hits with
  | nil => cases h
  | cons hit rest ih =>
    rw [readHits] at h
    cases hread : read hit with
    | error e' =>
      simp only [hread, Except.error.injEq] at h
      subst h
      exact ⟨hit, List.mem_cons_self, hread⟩
    | ok record =>
      cases hrest : readHits read rest with
      | ok others => simp [hread, hrest] at h
      | error e' =>
        simp only [hread, hrest, Except.error.injEq] at h
        subst h
        obtain ⟨other, hother, hfails⟩ := ih hrest
        exact ⟨other, List.mem_cons_of_mem hit hother, hfails⟩

/-- A way of reading hits that leaves this error to the bound. -/
def LeavesToBound (read : Materializer α) (limit : Nat) : Prop :=
  ∀ hit, read hit ≠ .error (.roundsExceeded limit)

theorem not_breaksWith (hread : LeavesToBound s.read limit) (script : List Scripted)
    (pages : List (SearchPage α)) :
    ¬s.BreaksWith (.roundsExceeded limit) left given script pages := by
  rintro ⟨-, -, -, r, found, -, -, -, hbreaks⟩
  obtain ⟨hit, -, hhit⟩ := exists_of_readHits_error hbreaks
  exact hread hit hhit

theorem readSource_ne_exceeded (t : RecordType) (text : List Utf8.Symbol) :
    t.readSource text ≠ .error (.roundsExceeded limit) := by
  unfold RecordType.readSource
  split <;> simp

theorem source_leavesToBound (t : RecordType) (limit : Nat) :
    LeavesToBound (Materializer.source t) limit := by
  intro hit
  rw [Materializer.source]
  cases hit.source with
  | none => simp
  | some text =>
    have hread : t.readSource (Utf8.symbols text) ≠ .error (.roundsExceeded limit) :=
      readSource_ne_exceeded t (Utf8.symbols text)
    cases hcase : t.readSource (Utf8.symbols text) <;> simp_all

theorem forQuery_leavesToBound (q : Query) (limit : Nat) :
    LeavesToBound (Materializer.forQuery q) limit := by
  intro hit
  have hsource := source_leavesToBound q.recordType limit hit
  rw [Materializer.forQuery]
  split
  · rw [Materializer.fields]
    cases hcase : Materializer.source q.recordType hit <;> simp_all
  · exact hsource

theorem rawSource_leavesToBound (limit : Nat) : LeavesToBound RawSource.read limit := by
  intro hit
  rw [RawSource.read]
  cases hit.source <;> simp

theorem outcome_ofEnding_eq_error_iff {ending : Except StoreError Unit} {records : List α}
    {e : StoreError} :
    (Streamed.ofEnding ending records).outcome = .error e ↔ ending = .error e := by
  cases ending <;> simp [Streamed.ofEnding]

/-- A session with a bound makes at most that many continuations. It ends with the error of the
bound if and only if the script overruns it, or a reader of hits gives that very error on the way
there; the readers of this library never do. When it overruns, all records of the pages that were
received have been handed out. A session that ends otherwise is the same with a larger bound or
with none. -/
theorem run_exact_under_bound (s : Scroll α) {h : Host} (hplans : h.engine.plans = [])
    {limit : Nat} (hmax : s.maxRounds = some limit) (docType index query : String) :
    (∃ calls, (s.run docType index query h).2.engine.calls = h.engine.calls ++ calls ∧
      calls.countP (fun c => c.method = .getScroll) ≤ limit) ∧
    ((s.run docType index query h).1.outcome = .error (.roundsExceeded limit) ↔
      (∃ pages, s.Overruns limit [] h.engine.responses pages) ∨
        ∃ pages, s.BreaksWith (.roundsExceeded limit) limit [] h.engine.responses pages) ∧
    (LeavesToBound s.read limit →
      ((s.run docType index query h).1.outcome = .error (.roundsExceeded limit) ↔
        ∃ pages, s.Overruns limit [] h.engine.responses pages)) ∧
    (∀ q, LeavesToBound (Materializer.forQuery q) limit) ∧ LeavesToBound RawSource.read limit ∧
    (∀ pages, s.Overruns limit [] h.engine.responses pages →
      (s.run docType index query h).1.records = pages.flatMap SearchPage.records) ∧
    ((s.run docType index query h).1.outcome ≠ .error (.roundsExceeded limit) →
      ∀ bound, (∀ other, bound = some other → limit ≤ other) →
        ((s.bounded bound).run docType index query h).1 = (s.run docType index query h).1 ∧
        ((s.bounded bound).run docType index query h).2.engine =
          (s.run docType index query h).2.engine) := by
  obtain ⟨log, hrun⟩ := run_eq_follow (s := s) hplans docType index query
  dsimp only at hrun
  have hiff : (s.run docType index query h).1.outcome = .error (.roundsExceeded limit) ↔
      (∃ pages, s.Overruns limit [] h.engine.responses pages) ∨
        ∃ pages, s.BreaksWith (.roundsExceeded limit) limit [] h.engine.responses pages := by
    rw [hrun, outcome_ofEnding_eq_error_iff]
    constructor
    · exact exceeds_of_ending hmax (Nat.zero_add limit) "404 for query?"
    · rintro (⟨pages, hover⟩ | ⟨pages, hbreaks⟩)
      · exact (follow_of_overruns hmax (Nat.zero_add limit) hover "404 for query?").2
      · exact ending_of_breaksWith hmax (Nat.zero_add limit) hbreaks "404 for query?"
  refine ⟨?_, hiff, ?_, (forQuery_leavesToBound · limit), rawSource_leavesToBound limit, ?_, ?_⟩
  · have hasked : 0 + (s.follow "404 for query?" 0 [] h.engine.responses).asked.length ≤ limit :=
      length_asked_le hmax (Nat.zero_le limit) "404 for query?"
    rw [Nat.zero_add] at hasked
    rw [hrun]
    generalize s.follow "404 for query?" 0 [] h.engine.responses = c at hasked
    refine ⟨.postQuery true docType index query :: c.asked.map .getScroll ++
      CursorSet.releaseCalls c.cursors.eraseDups, ?_, ?_⟩
    · simp only [Course.settled, List.append_assoc, List.cons_append]
    · rw [countP_sessionCalls (fun _ => rfl) (fun _ => rfl)]
      exact hasked
  · intro hread
    rw [hiff, or_iff_left]
    rintro ⟨pages, hbreaks⟩
    exact not_breaksWith hread _ pages hbreaks
  · intro pages hover
    have hpages := (follow_of_overruns hmax (Nat.zero_add limit) hover "404 for query?").1
    have htaken := handOut_of_taken (taken_iff.mpr hover.passes.taken)
    rw [hrun, records_ofEnding, Course.records, hpages, ← handOut_eq_cutAfter, htaken,
      List.nil_append]
  · intro hend bound hbound
    obtain ⟨log', hrun'⟩ := run_eq_follow (s := s.bounded bound) hplans docType index query
    rw [hrun, Ne, outcome_ofEnding_eq_error_iff] at hend
    rw [follow_bounded hmax hbound "404 for query?" hend] at hrun'
    rw [hrun, hrun']
    exact ⟨rfl, rfl⟩

/-! ### A page without a cursor at the bound -/

/-- An engine that promises two hits, and has one of them on a page without a cursor. -/
def lostCursor : Host :=
  { Host.blank with
    engine := { Engine.blank with
      responses := [.response (.ok (Json.ofMembers [("hits", .ofMembers
        [("total", .ofNat 2), ("hits", .array [.ofMembers
          [("_id", .string "1"), ("_source", .ofMembers [])]])])]).bytes)] } }

/-- The bound comes before the missing cursor, and two pages are within a bound of one. -/
theorem run_exact_under_bound_lostCursor :
    lostCursor.engine.plans = [] ∧ (sources.bounded (some 0)).maxRounds = some 0 ∧
      (∃ pages, (sources.bounded (some 0)).Overruns 0 [] lostCursor.engine.responses pages) ∧
      ((sources.bounded (some 0)).run "order" "orders" "all" lostCursor).1.outcome =
        .error (.roundsExceeded 0) ∧
      (sources.run "order" "orders" "all" twoPages).1 =
        ((sources.bounded (some 1)).run "order" "orders" "all" twoPages).1 := by
  have hzero := run_exact_under_bound (sources.bounded (some 0)) (h := lostCursor) rfl rfl
    "order" "orders" "all"
  have hone := run_exact_under_bound (sources.bounded (some 1)) (h := twoPages) rfl rfl
    "order" "orders" "all"
  have hexceeded : ((sources.bounded (some 0)).run "order" "orders" "all" lostCursor).1.outcome =
      .error (.roundsExceeded 0) := by
    obtain ⟨log, hrun⟩ := run_eq_follow (s := sources.bounded (some 0)) (h := lostCursor) rfl
      "order" "orders" "all"
    rw [hrun, outcome_ofEnding_eq_error_iff, Course.ending_eq_exceeded_iff]
    decide +kernel
  have hwithin : ((sources.bounded (some 1)).run "order" "orders" "all" twoPages).1.outcome ≠
      .error (.roundsExceeded 1) := by
    obtain ⟨log, hrun⟩ := run_eq_follow (s := sources.bounded (some 1)) (h := twoPages) rfl
      "order" "orders" "all"
    rw [hrun, Ne, outcome_ofEnding_eq_error_iff, Course.ending_eq_exceeded_iff]
    decide +kernel
  have hover := (hzero.2.2.1 (rawSource_leavesToBound 0)).mp hexceeded
  obtain ⟨hsame, -⟩ := hone.2.2.2.2.2.2 hwithin none fun _ h => by cases h
  exact ⟨rfl, rfl, hover, hexceeded, hsame⟩

end Scroll

end DocumentSearch
