import DocumentSearch.Engine.Scroll
import Mathlib.Data.List.Infix

/-!
# The course of a scroll

What becomes of a scroll is decided by the script of the engine, as long as every call arrives.
`Scroll.follow` tells its course by recursion on the script: which pages are accepted, by which
cursors it asks to go on, and how it ends. There is no state in it but the count of rounds and the
records that the consumer has. What one answer can do to a course is said once, by `follow_cases`.
-/

namespace DocumentSearch

/-! ### Handing out -/

section HandOut

variable {α : Type} {stop : List α → Bool}

/-- A consumer that is not stopped by the first records goes on with the others. -/
theorem handOut_append {given first : List α} (h : (handOut stop given first).2 = false)
    (others : List α) :
    handOut stop given (first ++ others) = handOut stop (handOut stop given first).1 others := by
  induction first generalizing given with
  | nil => rfl
  | cons r rest ih =>
    rw [List.cons_append, handOut, handOut]
    rw [handOut] at h
    by_cases hstop : stop (given ++ [r])
    · simp [hstop] at h
    · simp only [hstop] at h ⊢
      exact ih h

/-- What is left of a list of records when it is cut after the first record on which the consumer
stops. -/
def cutAfter (stop : List α → Bool) (records : List α) : List α :=
  (records.inits.tail.find? stop).getD records

theorem handOut_eq_find (given records : List α) :
    (handOut stop given records).1 =
      ((records.inits.tail.map (given ++ ·)).find? stop).getD (given ++ records) := by
  induction records generalizing given with
  | nil => simp [handOut]
  | cons r rest ih =>
    have hinits : (r :: rest).inits.tail = [r] :: rest.inits.tail.map (List.cons r) := by
      rw [List.inits_cons]
      cases rest <;> simp
    rw [handOut, hinits, List.map_cons]
    by_cases hstop : stop (given ++ [r])
    · simp [hstop]
    · have hlists : (rest.inits.tail.map (List.cons r)).map (given ++ ·) =
          rest.inits.tail.map (given ++ [r] ++ ·) := by simp [Function.comp_def]
      have hrecords : given ++ r :: rest = given ++ [r] ++ rest := List.append_cons given r rest
      rw [if_neg hstop, ih, List.find?_cons_of_neg hstop, hlists, hrecords]

theorem handOut_eq_cutAfter (records : List α) :
    (handOut stop [] records).1 = cutAfter stop records := by
  rw [handOut_eq_find, cutAfter]
  simp

theorem prefix_cutAfter (stop : List α → Bool) (records : List α) :
    cutAfter stop records <+: records := by
  rw [cutAfter]
  cases hfind : records.inits.tail.find? stop with
  | none => exact List.prefix_rfl
  | some first =>
    have hmem : first ∈ records.inits := List.mem_of_mem_tail (List.mem_of_find?_eq_some hfind)
    exact (List.mem_inits first records).mp hmem

theorem handOut_of_taken {given records : List α} (h : (handOut stop given records).2 = false) :
    (handOut stop given records).1 = given ++ records := by
  induction records generalizing given with
  | nil => simp [handOut]
  | cons r rest ih =>
    rw [handOut] at h ⊢
    by_cases hstop : stop (given ++ [r])
    · simp [hstop] at h
    · simp only [hstop] at h ⊢
      have hrest := ih h
      simpa using hrest

/-- A consumer that is stopped is stopped by the last record that it is handed. -/
theorem stop_handOut {given records : List α} (h : (handOut stop given records).2 = true) :
    (handOut stop given records).1 ≠ [] ∧ stop (handOut stop given records).1 = true := by
  induction records generalizing given with
  | nil => cases h
  | cons r rest ih =>
    rw [handOut] at h ⊢
    by_cases hstop : stop (given ++ [r])
    · simp [hstop]
    · simp only [hstop] at h ⊢
      exact ih h

/-- If records are held back from a consumer, it is because it has stopped. -/
theorem stop_cutAfter {records : List α} (h : cutAfter stop records ≠ records) :
    cutAfter stop records ≠ [] ∧ stop (cutAfter stop records) = true := by
  rw [← handOut_eq_cutAfter] at h ⊢
  cases hstopped : (handOut stop [] records).2 with
  | true => exact stop_handOut hstopped
  | false => exact absurd ((handOut_of_taken hstopped).trans (List.nil_append records)) h

theorem taken_append {given first others : List α} :
    (handOut stop given (first ++ others)).2 = false ↔
      (handOut stop given first).2 = false ∧
        (handOut stop (given ++ first) others).2 = false := by
  induction first generalizing given with
  | nil => simp [handOut]
  | cons r rest ih =>
    rw [List.cons_append, handOut, handOut]
    by_cases hstop : stop (given ++ [r])
    · simp [hstop]
    · simp only [hstop]
      have hrest := @ih (given ++ [r])
      simpa using hrest

/-- A consumer takes all records if it does not stop after any of them. -/
theorem taken_iff {given records : List α} :
    (handOut stop given records).2 = false ↔
      ∀ first, first ≠ [] → first <+: records → stop (given ++ first) = false := by
  induction records generalizing given with
  | nil =>
    constructor
    · intro _ first hsome hfirst
      exact absurd (List.prefix_nil.mp hfirst) hsome
    · intro _
      rfl
  | cons r rest ih =>
    rw [handOut]
    by_cases hstop : stop (given ++ [r])
    · have hfirst : [r] <+: r :: rest := ⟨rest, rfl⟩
      constructor
      · simp [hstop]
      · intro h
        have hgoes := h [r] (List.cons_ne_nil r []) hfirst
        rw [hgoes] at hstop
        cases hstop
    · simp only [hstop]
      refine ih.trans ⟨fun h first hsome hfirst => ?_, fun h first _ hfirst => ?_⟩
      · obtain ⟨r', others, rfl⟩ := List.exists_cons_of_ne_nil hsome
        obtain ⟨rfl, hothers⟩ := List.cons_prefix_cons.mp hfirst
        by_cases hnone : others = []
        · subst hnone
          simpa using hstop
        · rw [List.append_cons]
          exact h others hnone hothers
      · rw [← List.append_cons]
        exact h (r :: first) (List.cons_ne_nil r first) (List.cons_prefix_cons.mpr ⟨rfl, hfirst⟩)

end HandOut

/-! ### The course -/

/-- How a scroll ends at a turn, if it does. -/
def Turn.ending? : Turn → Option (Except StoreError Unit)
  | .finished => some (.ok ())
  | .failed e => some (.error e)
  | .next _ => none

/-- The pages a scroll accepts, the cursors by which it asks to go on, and how it ends. -/
structure Course (α : Type) where
  pages : List (SearchPage α)
  asked : List String
  ending : Except StoreError Unit

namespace Course

variable {α : Type}

def cursors (c : Course α) : List String := c.pages.filterMap SearchPage.cursor

def records (c : Course α) : List α := c.pages.flatMap SearchPage.records

/-- The course after a page whose cursor was asked to go on with. -/
def preceded (c : Course α) (page : SearchPage α) (cursor : String) : Course α :=
  ⟨page :: c.pages, cursor :: c.asked, c.ending⟩

theorem cursors_preceded (c : Course α) (page : SearchPage α) (cursor : String) :
    (c.preceded page cursor).cursors = page.cursor.toList ++ c.cursors := by
  rw [cursors, preceded, List.filterMap_cons]
  cases page.cursor <;> rfl

theorem records_preceded (c : Course α) (page : SearchPage α) (cursor : String) :
    (c.preceded page cursor).records = page.records ++ c.records :=
  List.flatMap_cons

/-- What is measured of pages and of the cursors asked to go on with: each page's hits when it is
accepted, and a round before each continuation. -/
def measuredFrom : List (SearchPage α) → List String → List Measurement
  | [], asked => asked.map fun _ => .scrollRound
  | page :: pages, [] => .pageHits page.records.length :: measuredFrom pages []
  | page :: pages, _ :: asked =>
    .pageHits page.records.length :: .scrollRound :: measuredFrom pages asked

def measured (c : Course α) : List Measurement := measuredFrom c.pages c.asked

end Course

namespace Scroll

variable {α : Type} (s : Scroll α)

def pageOf (context : String) (r : Response) : Except StoreError (SearchPage α) :=
  match r.content context with
  | .error e => .error e
  | .ok body => SearchPage.parse s.read body

/-- How to go on after a page, once its records are handed out after those of `given`. -/
def turn (rounds : Nat) (given : List α) (page : SearchPage α) : Turn :=
  if (handOut s.stop given page.records).2 then .finished else s.turnAfter rounds page

/-- The course of a scroll from its next answer on. -/
def follow (context : String) (rounds : Nat) (given : List α) : List Scripted → Course α
  | [] => ⟨[], [], .error (.transport (.connection "no scripted response left"))⟩
  | .failure reason :: _ => ⟨[], [], .error (.transport (.connection reason))⟩
  | .response r :: rest =>
    match s.pageOf context r with
    | .error e => ⟨[], [], .error e⟩
    | .ok page =>
      match s.turn rounds given page with
      | .finished => ⟨[page], [], .ok ()⟩
      | .failed e => ⟨[page], [], .error e⟩
      | .next cursor =>
        (follow s!"404 for scrollId:{cursor}" (rounds + 1)
          (handOut s.stop given page.records).1 rest).preceded page cursor

/-- An answer without a page ends the course; a page ends it, or is followed by a course that
begins with the next answer. -/
theorem follow_cases (context : String) (rounds : Nat) (given : List α) (r : Response)
    (rest : List Scripted) :
    (∃ e, s.pageOf context r = .error e ∧
      s.follow context rounds given (.response r :: rest) = ⟨[], [], .error e⟩) ∨
    (∃ page ending, s.pageOf context r = .ok page ∧
      (s.turn rounds given page).ending? = some ending ∧
      s.follow context rounds given (.response r :: rest) = ⟨[page], [], ending⟩) ∨
    ∃ page cursor, s.pageOf context r = .ok page ∧ s.turn rounds given page = .next cursor ∧
      s.follow context rounds given (.response r :: rest) =
        (s.follow s!"404 for scrollId:{cursor}" (rounds + 1)
          (handOut s.stop given page.records).1 rest).preceded page cursor := by
  cases hpage : s.pageOf context r with
  | error e =>
    left
    refine ⟨e, rfl, ?_⟩
    simp only [follow, hpage]
  | ok page =>
    right
    cases hturn : s.turn rounds given page with
    | finished =>
      left
      refine ⟨page, .ok (), rfl, by rw [hturn]; rfl, ?_⟩
      simp only [follow, hpage, hturn]
    | failed e =>
      left
      refine ⟨page, .error e, rfl, by rw [hturn]; rfl, ?_⟩
      simp only [follow, hpage, hturn]
    | next cursor =>
      right
      refine ⟨page, cursor, rfl, hturn, ?_⟩
      simp only [follow, hpage, hturn]

/-! ### Turns -/

section Turns

variable {s} {rounds : Nat} {given : List α} {page : SearchPage α} {cursor : String}

/-- A consumer that has been stopped is never asked to go on. -/
theorem not_stopped_of_next (h : s.turn rounds given page = .next cursor) :
    (handOut s.stop given page.records).2 = false := by
  unfold turn at h
  split at h
  next => cases h
  next hstop => simpa using hstop

/-- A scroll goes on with the cursor of the page it has just read. -/
theorem cursor_of_next (h : s.turn rounds given page = .next cursor) :
    page.cursor = some cursor := by
  unfold turn at h
  split at h
  next => cases h
  next =>
    unfold turnAfter at h
    split at h
    next => cases h
    next =>
      split at h
      next => cases h
      next => cases h
      next cursor' hlimit hcursor =>
        cases h
        exact hcursor

/-- Room for one round and more is room for the one, and for the others after it. -/
theorem room_cons {β : Type} {bound : Option Nat} {page : β} {pages : List β}
    (h : ∀ limit, bound = some limit → rounds + (page :: pages).length ≤ limit) :
    (∀ limit, bound = some limit → rounds < limit) ∧
      ∀ limit, bound = some limit → rounds + 1 + pages.length ≤ limit := by
  rw [List.length_cons] at h
  refine ⟨fun limit hmax => ?_, fun limit hmax => ?_⟩
  all_goals
    have hle := h limit hmax
    omega

end Turns

/-! ### What a course takes from the script -/

/-- The page that an item of the script holds, if it is accepted. -/
def accepted (read : Materializer α) : Scripted → Option (SearchPage α)
  | .response r => if r.status = 200 then (SearchPage.parse read r.body).toOption else none
  | .failure _ => none

variable {s}

theorem accepted_response (context : String) (r : Response) :
    accepted s.read (.response r) = (s.pageOf context r).toOption := by
  rw [accepted, pageOf, Response.content]
  by_cases hok : r.status = 200
  · rw [if_pos hok, if_pos hok]
  · by_cases hmissing : r.status = 404
    · rw [if_neg hok, if_neg hok, if_pos hmissing]
      rfl
    · rw [if_neg hok, if_neg hok, if_neg hmissing]
      rfl

theorem accepted_of_ok {context : String} {r : Response} {page : SearchPage α}
    (h : s.pageOf context r = .ok page) : accepted s.read (.response r) = some page := by
  rw [accepted_response context, h]
  rfl

theorem accepted_of_error {context : String} {r : Response} {e : StoreError}
    (h : s.pageOf context r = .error e) : accepted s.read (.response r) = none := by
  rw [accepted_response context, h]
  rfl

theorem accepted_iff {read : Materializer α} {r : Response} {page : SearchPage α} :
    accepted read (.response r) = some page ↔
      r.status = 200 ∧ ∃ found, ResultPage.parse r.body = .ok found ∧
        found.materialize read = .ok page := by
  rw [accepted, SearchPage.parse]
  by_cases hstatus : r.status = 200
  · rw [if_pos hstatus]
    cases ResultPage.parse r.body with
    | error e => simp [Except.toOption]
    | ok found => cases hread : found.materialize read <;> simp [hread, hstatus, Except.toOption]
  · simp [hstatus]

/-- A hit that cannot be read keeps all of its page back. -/
theorem readHits_ne_ok {read : Materializer α} {hit : Hit} {e : StoreError} {hits : List Hit}
    (hhit : hit ∈ hits) (hread : read hit = .error e) (records : List α) :
    readHits read hits ≠ .ok records := by
  induction hits generalizing records with
  | nil => simp at hhit
  | cons first rest ih =>
    intro hok
    rw [readHits] at hok
    cases hfirst : read first with
    | error e' => simp [hfirst] at hok
    | ok record =>
      rcases List.mem_cons.mp hhit with rfl | hrest
      · simp [hread] at hfirst
      · cases hothers : readHits read rest with
        | error e' => simp [hfirst, hothers] at hok
        | ok others => exact ih hrest others hothers

theorem accepted_of_unread {read : Materializer α} {r : Response} {page : ResultPage} {hit : Hit}
    {e : StoreError} (hparse : ResultPage.parse r.body = .ok page) (hhit : hit ∈ page.hits)
    (hread : read hit = .error e) : accepted read (.response r) = none := by
  rw [Option.eq_none_iff_forall_ne_some]
  intro found haccepted
  obtain ⟨-, page', hparse', hmaterialize⟩ := accepted_iff.mp haccepted
  obtain rfl : page = page' := Except.ok.inj (hparse.symm.trans hparse')
  rw [ResultPage.materialize] at hmaterialize
  cases hhits : readHits read page.hits with
  | error e' => simp [hhits] at hmaterialize
  | ok records => exact readHits_ne_ok hhit hread records hhits

section Script

variable (s) (context : String) (rounds : Nat) (given : List α) (script : List Scripted)

/-- The accepted pages are those of the items that were taken, and each search takes one item. -/
theorem pages_follow :
    (s.follow context rounds given script).pages =
      (script.take ((s.follow context rounds given script).asked.length + 1)).filterMap
        (accepted s.read) := by
  induction script generalizing context rounds given with
  | nil => rfl
  | cons item rest ih =>
    cases item with
    | failure reason => rfl
    | response r =>
      rcases s.follow_cases context rounds given r rest with
        ⟨e, hpage, hfollow⟩ | ⟨page, ending, hpage, -, hfollow⟩ |
        ⟨page, cursor, hpage, -, hfollow⟩
      · rw [hfollow]
        simp [accepted_of_error hpage]
      · rw [hfollow]
        simp [accepted_of_ok hpage]
      · rw [hfollow, Course.preceded, List.length_cons, List.take_succ_cons,
          List.filterMap_cons_some (accepted_of_ok hpage), ← ih]

/-- Each continuation asks with the cursor of the page before it. -/
theorem asked_follow :
    (script.take (s.follow context rounds given script).asked.length).map
        (fun item => (accepted s.read item).bind SearchPage.cursor) =
      (s.follow context rounds given script).asked.map some := by
  induction script generalizing context rounds given with
  | nil => rfl
  | cons item rest ih =>
    cases item with
    | failure reason => rfl
    | response r =>
      rcases s.follow_cases context rounds given r rest with
        ⟨e, -, hfollow⟩ | ⟨page, ending, -, -, hfollow⟩ | ⟨page, cursor, hpage, hturn, hfollow⟩
      · rw [hfollow]
        rfl
      · rw [hfollow]
        rfl
      · have hcursor : (accepted s.read (.response r)).bind SearchPage.cursor = some cursor := by
          rw [accepted_of_ok hpage, Option.bind_some, cursor_of_next hturn]
        rw [hfollow, Course.preceded, List.length_cons, List.take_succ_cons, List.map_cons,
          List.map_cons, ih, hcursor]

end Script

end Scroll

end DocumentSearch
