import DocumentSearch.Proofs.Engine.Session
import DocumentSearch.Store.Search
import Mathlib.Data.List.Forall2

/-!
# Streams and lists agree

The engine may cut the hits of a search into pages wherever it likes. A stream that nobody stops
hands out what a list would have held, had all hits come on one page. That a stream is over is seen
on each page by itself, from the number of its records and the total; so it has to be shown that no
part of the hits looks like all of them.
-/

namespace DocumentSearch

/-! ### Reading hits -/

section Reading

variable {α : Type} {read : Materializer α}

theorem readHits_ok_iff {hits : List Hit} {records : List α} :
    readHits read hits = .ok records ↔
      List.Forall₂ (fun hit record => read hit = .ok record) hits records := by
  induction hits generalizing records with
  | nil => simp [readHits, eq_comm]
  | cons hit rest ih =>
    rw [readHits, List.forall₂_cons_left_iff]
    cases hhit : read hit with
    | error e => simp
    | ok record =>
      cases hrest : readHits read rest with
      | error e => simp [← ih, hrest]
      | ok others => simp [← ih, hrest, eq_comm]

theorem exists_readHits {hits : List Hit} (h : ∀ hit ∈ hits, ∃ record, read hit = .ok record) :
    ∃ records, readHits read hits = .ok records := by
  induction hits with
  | nil => exact ⟨[], rfl⟩
  | cons hit rest ih =>
    obtain ⟨record, hrecord⟩ := h hit List.mem_cons_self
    obtain ⟨others, hothers⟩ := ih fun other hother => h other (List.mem_cons_of_mem hit hother)
    refine ⟨record :: others, ?_⟩
    rw [readHits, hrecord, hothers]

theorem length_readHits {hits : List Hit} {records : List α}
    (h : readHits read hits = .ok records) : records.length = hits.length :=
  (readHits_ok_iff.mp h).length_eq.symm

/-- Hits that can be read together can be read in parts. -/
theorem readHits_append {first others : List Hit} {records : List α}
    (h : readHits read (first ++ others) = .ok records) :
    ∃ xs ys, readHits read first = .ok xs ∧ readHits read others = .ok ys ∧
      records = xs ++ ys := by
  rw [readHits_ok_iff] at h
  refine ⟨records.take first.length, records.drop first.length, ?_, ?_,
    (List.take_append_drop _ _).symm⟩
  · have htake := List.forall₂_take first.length h
    rw [List.take_left] at htake
    exact readHits_ok_iff.mpr htake
  · have hdrop := List.forall₂_drop first.length h
    rw [List.drop_left] at hdrop
    exact readHits_ok_iff.mpr hdrop

end Reading

/-! ### Pages in a script -/

/-- A successful answer with this page. -/
def Scripted.Holds (item : Scripted) (page : ResultPage) : Prop :=
  ∃ r, item = .response r ∧ r.status = 200 ∧ ResultPage.parse r.body = .ok page

/-- A script that serves these hits in these pages. Every page has some of the hits, the number of
all hits and a cursor; where there are several, a page without hits comes after them. -/
structure ServedIn (script : List Scripted) (hits : List Hit) (pages : List ResultPage) :
    Prop where
  some_page : pages ≠ []
  split : pages.flatMap ResultPage.hits = hits
  filled : ∀ page ∈ pages, page.hits ≠ []
  total : ∀ page ∈ pages, page.total = hits.length
  cursor : ∀ page ∈ pages, page.cursor ≠ none
  script_eq : ∃ answers rest, script = answers ++ rest ∧ List.Forall₂ Scripted.Holds answers pages ∧
    (2 ≤ pages.length →
      ∃ answer rest' last, rest = answer :: rest' ∧ answer.Holds last ∧ last.hits = [])

/-- A page that has some of the hits and not all of them, and leads on to others. -/
structure ResultPage.IsPart (page : ResultPage) : Prop where
  filled : page.hits ≠ []
  part : page.hits.length < page.total
  cursor : page.cursor ≠ none

/-- The cursors with which a stream goes on: none after a page with all the hits, and otherwise
those of all pages. -/
def continuations (pages : List ResultPage) : List String :=
  if pages.length = 1 then [] else pages.filterMap ResultPage.cursor

theorem length_continuations {pages : List ResultPage}
    (hcursor : ∀ page ∈ pages, page.cursor ≠ none) :
    (continuations pages).length = if pages.length = 1 then 0 else pages.length := by
  have hall : (pages.filterMap ResultPage.cursor).length = pages.length := by
    rw [List.length_filterMap_eq_countP, List.countP_eq_length]
    intro page hpage
    exact Option.isSome_iff_ne_none.mpr (hcursor page hpage)
  unfold continuations
  split
  · rfl
  · exact hall

/-- One of several pages does not have all the hits. -/
theorem length_hits_lt {pages : List ResultPage} (hseveral : 2 ≤ pages.length)
    (hfilled : ∀ page ∈ pages, page.hits ≠ []) {page : ResultPage} (hpage : page ∈ pages) :
    page.hits.length < (pages.flatMap ResultPage.hits).length := by
  obtain ⟨before, after, rfl⟩ := List.append_of_mem hpage
  have hothers : before ++ after ≠ [] := by
    intro hnone
    obtain ⟨rfl, rfl⟩ := List.append_eq_nil_iff.mp hnone
    simp at hseveral
  obtain ⟨other, hother⟩ := List.exists_mem_of_ne_nil _ hothers
  have hmem : other ∈ before ++ page :: after := by
    rcases List.mem_append.mp hother with h | h
    · exact List.mem_append_left _ h
    · exact List.mem_append_right _ (List.mem_cons_of_mem page h)
  have hsome : 0 < ((before ++ after).flatMap ResultPage.hits).length := by
    obtain ⟨hit, hhit⟩ := List.exists_mem_of_ne_nil _ (hfilled other hmem)
    exact List.length_pos_of_mem (List.mem_flatMap.mpr ⟨other, hother, hhit⟩)
  simp only [List.flatMap_append, List.flatMap_cons, List.length_append] at hsome ⊢
  omega

namespace Scroll

variable {α : Type} {s : Scroll α} {rounds : Nat} {given : List α} {context : String}

/-! ### Turns of a scroll that nobody stops -/

theorem handOut_of_unstopped {stop : List α → Bool} (hgoes : ∀ given, stop given = false)
    (given records : List α) : (handOut stop given records).2 = false :=
  taken_iff.mpr fun first _ _ => hgoes (given ++ first)

theorem cutAfter_of_unstopped {stop : List α → Bool} (hgoes : ∀ given, stop given = false)
    (records : List α) : cutAfter stop records = records := by
  have hfind : records.inits.tail.find? stop = none := by simp [hgoes]
  rw [cutAfter, hfind, Option.getD_none]

theorem turn_of_unstopped (hgoes : ∀ given, s.stop given = false) (page : SearchPage α) :
    s.turn rounds given page = s.turnAfter rounds page := by
  simp [turn, handOut_of_unstopped hgoes]

theorem turnAfter_of_part {page : SearchPage α} {cursor : String} (hsome : page.records ≠ [])
    (hpart : page.records.length < page.total) (hcursor : page.cursor = some cursor)
    (hlimit : ∀ limit, s.maxRounds = some limit → rounds < limit) :
    s.turnAfter rounds page = .next cursor := by
  have hread : page.allHitsRead = false := by
    simp only [SearchPage.allHitsRead, Bool.or_eq_false_iff, decide_eq_false_iff_not]
    omega
  have hzero : page.zeroHits = false := by simpa [SearchPage.zeroHits] using hsome
  have hfree : s.atLimit rounds = none := by
    rw [atLimit]
    cases hmax : s.maxRounds with
    | none => rfl
    | some limit =>
      have := hlimit limit hmax
      simp only [ite_eq_right_iff, reduceCtorEq]
      omega
  simp [turnAfter, hread, hzero, hfree, hcursor]

theorem turnAfter_of_all {page : SearchPage α} (hall : page.records.length = page.total) :
    s.turnAfter rounds page = .finished := by
  simp [turnAfter, SearchPage.allHitsRead, hall]

theorem turnAfter_of_none {page : SearchPage α} (hnone : page.records = []) :
    s.turnAfter rounds page = .finished := by
  simp [turnAfter, SearchPage.zeroHits, hnone]

/-! ### Courses to the end -/

/-- A course that ends well, with these continuations and these records. -/
structure Completes (c : Course α) (asked : List String) (records : List α) : Prop where
  ending_eq : c.ending = .ok ()
  asked_eq : c.asked = asked
  records_eq : c.records = records

theorem pageOf_of_holds {r : Response} {page : ResultPage} {records : List α}
    (hstatus : r.status = 200) (hparse : ResultPage.parse r.body = .ok page)
    (hread : readHits s.read page.hits = .ok records) (context : String) :
    s.pageOf context r = .ok ⟨page.total, page.cursor, records⟩ := by
  rw [pageOf, Response.content, if_pos hstatus]
  simp only [SearchPage.parse, hparse, ResultPage.materialize, hread]

/-- A page is the last one if it has all the hits or none. -/
theorem completes_last (hgoes : ∀ given, s.stop given = false) {item : Scripted}
    {page : ResultPage} {records : List α} (hitem : item.Holds page)
    (hread : readHits s.read page.hits = .ok records)
    (hover : page.hits.length = page.total ∨ page.hits = []) (rest : List Scripted) :
    Completes (s.follow context rounds given (item :: rest)) [] records := by
  obtain ⟨r, rfl, hstatus, hparse⟩ := hitem
  have hlength := length_readHits hread
  have hturn : s.turnAfter rounds ⟨page.total, page.cursor, records⟩ = .finished := by
    rcases hover with hall | hnone
    · exact turnAfter_of_all (hlength.trans hall)
    · apply turnAfter_of_none
      simpa [hnone] using hlength
  have hfollow : s.follow context rounds given (.response r :: rest) =
      ⟨[⟨page.total, page.cursor, records⟩], [], .ok ()⟩ := by
    simp only [follow, pageOf_of_holds hstatus hparse hread, turn_of_unstopped hgoes, hturn]
  rw [hfollow]
  exact ⟨rfl, rfl, by simp [Course.records]⟩

theorem turnAfter_of_isPart {page : ResultPage} {cursor : String} {records : List α}
    (hpart : page.IsPart) (hcursor : page.cursor = some cursor)
    (hread : readHits s.read page.hits = .ok records)
    (hlimit : ∀ limit, s.maxRounds = some limit → rounds < limit) :
    s.turnAfter rounds ⟨page.total, page.cursor, records⟩ = .next cursor := by
  have hlength := length_readHits hread
  apply turnAfter_of_part _ _ hcursor hlimit
  · intro hnone
    rw [show records = [] from hnone] at hlength
    exact hpart.filled (List.eq_nil_of_length_eq_zero hlength.symm)
  · exact hlength ▸ hpart.part

/-- A page with a part of the hits is followed by the course that the rest of the script sets. -/
theorem completes_part (hgoes : ∀ given, s.stop given = false) {item : Scripted}
    {page : ResultPage} {cursor : String} {xs ys : List α} {asked : List String}
    {rest : List Scripted} (hitem : item.Holds page) (hpart : page.IsPart)
    (hcursor : page.cursor = some cursor) (hread : readHits s.read page.hits = .ok xs)
    (hlimit : ∀ limit, s.maxRounds = some limit → rounds < limit)
    (hthen : ∀ context given, Completes (s.follow context (rounds + 1) given rest) asked ys) :
    Completes (s.follow context rounds given (item :: rest)) (cursor :: asked) (xs ++ ys) := by
  obtain ⟨r, rfl, hstatus, hparse⟩ := hitem
  have hturn := turnAfter_of_isPart hpart hcursor hread hlimit
  obtain ⟨hending, hasked, hrecords⟩ :=
    hthen s!"404 for scrollId:{cursor}" (handOut s.stop given xs).1
  simp only [follow, pageOf_of_holds hstatus hparse hread, turn_of_unstopped hgoes, hturn]
  refine ⟨hending, congrArg (cursor :: ·) hasked, ?_⟩
  rw [Course.records_preceded, hrecords]

/-- A scroll whose consumer does not stop goes on after every page with a part of the hits. -/
theorem length_le_asked {answers : List Scripted} {pages : List ResultPage}
    (hanswers : List.Forall₂ Scripted.Holds answers pages)
    (hparts : ∀ page ∈ pages, page.IsPart ∧ ∃ records, readHits s.read page.hits = .ok records)
    (hlimit : ∀ limit, s.maxRounds = some limit → rounds + pages.length ≤ limit)
    (rest : List Scripted)
    (hgoes : (handOut s.stop given
      (s.follow context rounds given (answers ++ rest)).records).2 = false) :
    answers.length ≤ (s.follow context rounds given (answers ++ rest)).asked.length := by
  induction hanswers generalizing rounds context given with
  | nil => exact Nat.zero_le _
  | @cons item page answers pages hitem _ ih =>
    obtain ⟨⟨hpart, xs, hread⟩, hothers⟩ := List.forall_mem_cons.mp hparts
    obtain ⟨cursor, hcursor⟩ := Option.ne_none_iff_exists'.mp hpart.cursor
    obtain ⟨r, rfl, hstatus, hparse⟩ := hitem
    obtain ⟨hroom, hleft⟩ := room_cons hlimit
    have hnext : s.turnAfter rounds ⟨page.total, page.cursor, xs⟩ = .next cursor :=
      turnAfter_of_isPart hpart hcursor hread hroom
    simp only [List.cons_append, follow, pageOf_of_holds hstatus hparse hread, turn, hnext]
      at hgoes ⊢
    cases hstop : (handOut s.stop given xs).2 with
    | true => simp [hstop, Course.records] at hgoes
    | false =>
      simp only [hstop, Bool.false_eq_true, if_false, Course.records_preceded] at hgoes ⊢
      rw [taken_append, ← handOut_of_taken hstop] at hgoes
      exact Nat.succ_le_succ (ih hothers hleft hgoes.2)

/-- Through any number of partial pages to one without hits. -/
theorem completes_parts (hgoes : ∀ given, s.stop given = false) {answers : List Scripted}
    {pages : List ResultPage} (hanswers : List.Forall₂ Scripted.Holds answers pages)
    (hparts : ∀ page ∈ pages, page.IsPart)
    (hlimit : ∀ limit, s.maxRounds = some limit → rounds + pages.length ≤ limit)
    {records : List α} (hread : readHits s.read (pages.flatMap ResultPage.hits) = .ok records)
    {answer : Scripted} {last : ResultPage} (hanswer : answer.Holds last) (hlast : last.hits = [])
    (rest : List Scripted) :
    Completes (s.follow context rounds given (answers ++ answer :: rest))
      (pages.filterMap ResultPage.cursor) records := by
  -- The count of rounds grows as the pages get fewer, so the limit holds for the rest of them.
  induction hanswers generalizing rounds records context given with
  | nil =>
    obtain rfl : [] = records := by simpa [readHits] using hread
    have hnone : readHits s.read last.hits = .ok [] := by rw [hlast, readHits]
    exact completes_last hgoes hanswer hnone (.inr hlast) rest
  | @cons item page answers pages hitem _ ih =>
    obtain ⟨hpart, hothers⟩ := List.forall_mem_cons.mp hparts
    obtain ⟨xs, ys, hxs, hys, rfl⟩ := readHits_append (List.flatMap_cons ▸ hread)
    obtain ⟨cursor, hcursor⟩ := Option.ne_none_iff_exists'.mp hpart.cursor
    obtain ⟨hroom, hleft⟩ := room_cons hlimit
    rw [List.filterMap_cons_some hcursor, List.cons_append]
    exact completes_part hgoes hitem hpart hcursor hxs hroom
      fun context given => ih hothers hleft hys

/-- Hits are read to the end, however they are split into pages. -/
theorem completes_of_served (hgoes : ∀ given, s.stop given = false) {script : List Scripted}
    {hits : List Hit} {pages : List ResultPage} (hserved : ServedIn script hits pages)
    (hlimit : ∀ limit, s.maxRounds = some limit → pages.length ≤ limit) {records : List α}
    (hread : readHits s.read hits = .ok records) (context : String) (given : List α) :
    Completes (s.follow context 0 given script) (continuations pages) records := by
  obtain ⟨answers, rest, rfl, hanswers, hclosed⟩ := hserved.script_eq
  -- A single page has all the hits; of several pages none has, so the one without hits is reached.
  by_cases hone : pages.length = 1
  · obtain ⟨page, rfl⟩ := List.length_eq_one_iff.mp hone
    obtain ⟨item, answers', hitem, hnil, rfl⟩ := List.forall₂_cons_right_iff.mp hanswers
    obtain rfl := List.forall₂_nil_right_iff.mp hnil
    have hpage : page.hits = hits := by simpa using hserved.split
    have hall : page.hits.length = page.total := by
      rw [hpage, hserved.total page List.mem_cons_self]
    have hasked : continuations [page] = [] := rfl
    rw [hasked]
    exact completes_last hgoes hitem (hpage ▸ hread) (.inl hall) rest
  · have hseveral : 2 ≤ pages.length := by
      have := List.length_pos_iff.mpr hserved.some_page
      omega
    obtain ⟨answer, rest', last, rfl, hanswer, hlast⟩ := hclosed hseveral
    have hparts : ∀ page ∈ pages, page.IsPart := by
      intro page hpage
      refine ⟨hserved.filled page hpage, ?_, hserved.cursor page hpage⟩
      rw [hserved.total page hpage, ← hserved.split]
      exact length_hits_lt hseveral hserved.filled hpage
    rw [continuations, if_neg hone]
    exact completes_parts hgoes hanswers hparts (by simpa using hlimit) (hserved.split ▸ hread)
      hanswer hlast rest'

end Scroll

/-! ### Streams -/

/-- The cursors of all continuations, in order. -/
def Engine.continued (e : Engine) : List String :=
  e.calls.filterMap fun
    | .getScroll cursor => some cursor
    | _ => none

theorem Course.continued_settled {α : Type} (c : Course α) (docType index query : String)
    (e : Engine) :
    (c.settled (.postQuery true docType index query) e).continued = e.continued ++ c.asked := by
  have hasked : (c.asked.map Call.getScroll).filterMap (fun
      | .getScroll cursor => some cursor
      | _ => none) = c.asked := by
    simp [List.filterMap_map]
  have hrelease : (CursorSet.releaseCalls c.cursors.eraseDups).filterMap (fun
      | .getScroll cursor => some cursor
      | _ => none) = [] := by
    unfold CursorSet.releaseCalls
    split <;> rfl
  simp only [Engine.continued, Course.settled, List.filterMap_append, List.filterMap_cons]
  rw [hasked, hrelease, List.append_nil]

/-- Between two states of the engine, a stream has handed out these records, one for each hit, and
has gone on from page to page as far as there were hits. -/
structure StreamsAll {α : Type} (read : Materializer α) (hits : List Hit)
    (pages : List ResultPage) (before after : Engine) (result : Streamed α) (records : List α) :
    Prop where
  outcome_eq : result.outcome = .ok hits.length
  records_eq : result.records = records
  each_read : List.Forall₂ (fun hit record => read hit = .ok record) hits records
  continued_eq : after.continued = before.continued ++ continuations pages
  rounds_eq : after.continued.length =
    before.continued.length + if pages.length = 1 then 0 else pages.length

namespace Scroll

variable {α : Type} {s : Scroll α} {h : Host}

theorem streamsAll_run (hgoes : ∀ given, s.stop given = false) (hplans : h.engine.plans = [])
    {hits : List Hit} {pages : List ResultPage} (hserved : ServedIn h.engine.responses hits pages)
    (hlimit : ∀ limit, s.maxRounds = some limit → pages.length ≤ limit) {records : List α}
    (hread : readHits s.read hits = .ok records) (docType index query : String) :
    StreamsAll s.read hits pages h.engine (s.run docType index query h).2.engine
      (s.run docType index query h).1 records := by
  obtain ⟨log, hrun⟩ := run_eq_follow (s := s) hplans docType index query
  have hcompletes := completes_of_served hgoes hserved hlimit hread "404 for query?" []
  rw [hrun]
  dsimp only
  generalize s.follow "404 for query?" 0 [] h.engine.responses = c at hcompletes
  rw [hcompletes.ending_eq, hcompletes.records_eq, cutAfter_of_unstopped hgoes]
  have hcontinued := (c.continued_settled docType index query h.engine).trans
    (congrArg (h.engine.continued ++ ·) hcompletes.asked_eq)
  constructor
  case outcome_eq => rw [← length_readHits hread]; rfl
  case records_eq => rfl
  case each_read => exact readHits_ok_iff.mp hread
  case continued_eq => exact hcontinued
  case rounds_eq => rw [hcontinued, List.length_append, length_continuations hserved.cursor]

end Scroll

/-! ### Requests -/

namespace Query

variable {q : Query} {j : Json} {h : Host}

theorem compileText_of_ok (hcompiled : q.compile = .ok j) :
    q.compileText h =
      (.ok j.write, h.record (.queryBytes (Utf8.encode j.write).length)) := by
  simp only [compileText, Action.thenDo, Action.ofExcept, hcompiled, Outcome.ofExcept]
  rfl

theorem scroll_of_ok {α : Type} (hcompiled : q.compile = .ok j) (s : Scroll α) :
    q.scroll s h = s.run q.recordType.mapping.docType q.recordType.mapping.index j.write
      (h.record (.queryBytes (Utf8.encode j.write).length)) := by
  rw [scroll, compileText_of_ok hcompiled]

theorem fetchPage_of_holds (hcompiled : q.compile = .ok j) (hplans : h.engine.plans = [])
    {answer : Scripted} {rest : List Scripted} (hscript : h.engine.responses = answer :: rest)
    {page : ResultPage} (hanswer : answer.Holds page) {records : List Document}
    (hread : readHits (.forQuery q) page.hits = .ok records) :
    (q.fetchPage h).1 = .ok ⟨page.total, page.cursor, records⟩ := by
  obtain ⟨r, rfl, hstatus, hparse⟩ := hanswer
  have hcontent : r.content "404 for query?" = .ok r.body := by
    rw [Response.content, if_pos hstatus]
  have hpage : SearchPage.parse (.forQuery q) r.body = .ok ⟨page.total, page.cursor, records⟩ := by
    simp only [SearchPage.parse, hparse, ResultPage.materialize, hread]
  have hnext (call : Call) : (h.engine.noted call).nextResponse =
      (.ok r, (h.engine.noted call).advanced []) := Engine.nextResponse_of_response hscript
  simp only [fetchPage, Action.thenDo, compileText_of_ok hcompiled, Action.call, Host.record,
    Engine.postQuery, Engine.call_of_no_plans hplans, hnext, Action.ofExcept, hcontent,
    Outcome.ofExcept, hpage]
  rfl

/-- A list holds the records of the one page that the engine answers with. -/
theorem findList_of_holds (hcompiled : q.compile = .ok j) (hplans : h.engine.plans = [])
    {answer : Scripted} {rest : List Scripted} (hscript : h.engine.responses = answer :: rest)
    {page : ResultPage} (hanswer : answer.Holds page) {records : List Document}
    (hread : readHits (.forQuery q) page.hits = .ok records) :
    (q.findList h).1 = .ok records := by
  have hpage := fetchPage_of_holds hcompiled hplans hscript hanswer hread
  rcases hfetched : q.fetchPage h with ⟨outcome, h'⟩
  rw [hfetched] at hpage
  dsimp only at hpage
  simp only [findList, Action.timed, Action.observed, Action.map, Action.thenDo, hfetched, hpage]
  rfl

theorem streamsAll_scroll {α : Type} {s : Scroll α} (hcompiled : q.compile = .ok j)
    (hgoes : ∀ given, s.stop given = false) (hplans : h.engine.plans = [])
    {hits : List Hit} {pages : List ResultPage} (hserved : ServedIn h.engine.responses hits pages)
    (hlimit : ∀ limit, s.maxRounds = some limit → pages.length ≤ limit) {records : List α}
    (hread : readHits s.read hits = .ok records) :
    StreamsAll s.read hits pages h.engine (q.scroll s h).2.engine (q.scroll s h).1 records := by
  rw [scroll_of_ok hcompiled]
  exact Scroll.streamsAll_run (h := h.record _) hgoes hplans hserved hlimit hread _ _ _

/-- A stream over hits that come in any number of pages hands out, one after the other, what a list
holds when all of them come on one page. It goes on once for each page, and not at all after a page
with all the hits. Documents are read as the request wants them, sources as they were sent. -/
theorem findEach_eq_findList {q : Query} {config : StoreConfig} {h single : Host} {j : Json}
    {hits : List Hit} {pages : List ResultPage} {whole : Response} {rest : List Scripted}
    {page : ResultPage} (hcompiled : q.compile = .ok j) (hplans : h.engine.plans = [])
    (hserved : ServedIn h.engine.responses hits pages)
    (hlimit : ∀ limit, config.maxScrollRounds = some limit → pages.length ≤ limit)
    (hsingle : single.engine.plans = [])
    (hscript : single.engine.responses = .response whole :: rest)
    (hwhole : (Scripted.response whole).Holds page) (hpage : page.hits = hits) :
    ((∀ hit ∈ hits, ∃ d, Materializer.forQuery q hit = .ok d) →
      ∃ documents, (q.findList single).1 = .ok documents ∧
        StreamsAll (.forQuery q) hits pages h.engine
          (q.findEach config (fun _ => false) h).2.engine
          (q.findEach config (fun _ => false) h).1 documents) ∧
    ((∀ hit ∈ hits, ∃ source, RawSource.read hit = .ok source) →
      ∃ sources,
        (SearchPage.parse RawSource.read whole.body).map SearchPage.records = .ok sources ∧
        StreamsAll RawSource.read hits pages h.engine
          (q.findEachRawSource config (fun _ => false) h).2.engine
          (q.findEachRawSource config (fun _ => false) h).1 sources) := by
  refine ⟨fun hall => ?_, fun hall => ?_⟩
  · obtain ⟨documents, hread⟩ := exists_readHits hall
    refine ⟨documents, findList_of_holds hcompiled hsingle hscript hwhole (hpage ▸ hread), ?_⟩
    exact streamsAll_scroll (s := ⟨.forQuery q, fun _ => false, config.maxScrollRounds⟩)
      hcompiled (fun _ => rfl) hplans hserved hlimit hread
  · obtain ⟨sources, hread⟩ := exists_readHits hall
    obtain ⟨r, heq, -, hparse⟩ := hwhole
    obtain rfl := Scripted.response.inj heq
    refine ⟨sources, ?_, ?_⟩
    · simp only [SearchPage.parse, hparse, ResultPage.materialize, hpage, hread]
      rfl
    · exact streamsAll_scroll (s := ⟨RawSource.read, fun _ => false, config.maxScrollRounds⟩)
        hcompiled (fun _ => rfl) hplans hserved hlimit hread

end Query

/-! ### Three hits -/

open Scroll (pageAnswer)

def allOrders : Query := .all ⟨"order", .empty "orders" "order", "id"⟩

def storedHit (id : String) : Json := .ofMembers [("_id", .string id), ("_source", .ofMembers [])]

def readHit (id : String) : Hit := ⟨id, none, some "{}", []⟩

def twoRounds : StoreConfig := { StoreConfig.standard with maxScrollRounds := some 2 }

def answering (answers : List Response) : Host :=
  { Host.blank with engine := { Engine.blank with responses := answers.map .response } }

/-- The hits come on a page with one and a page with two of them. -/
def inParts : Host :=
  answering [pageAnswer 3 "s1" [storedHit "1"], pageAnswer 3 "s2" [storedHit "2", storedHit "3"],
    pageAnswer 3 "s3" []]

def inOne : Host :=
  answering [pageAnswer 3 "s4" (["1", "2", "3"].map storedHit)]

/-- The id of a hit that has an empty source and nothing else. -/
def bareId? : Hit → Option String
  | ⟨id, none, some "{}", []⟩ => some id
  | _ => none

theorem eq_of_bareId? {hit : Hit} {id : String} (h : bareId? hit = some id) :
    hit = readHit id := by
  unfold bareId? at h
  split at h
  · obtain rfl := Option.some.inj h
    rfl
  · cases h

/-- A page of bare hits is known by its ids, which can be compared. -/
theorem holds_of_bare {body : List UInt8} {total : Nat} {cursor : String} {ids : List String}
    (h : (ResultPage.parse body).toOption.map (fun p => (p.total, p.cursor, p.hits.map bareId?)) =
      some (total, some cursor, ids.map some)) :
    (Scripted.response (.ok body)).Holds ⟨total, some cursor, ids.map readHit⟩ := by
  refine ⟨.ok body, rfl, rfl, ?_⟩
  show ResultPage.parse body = _
  cases hparse : ResultPage.parse body with
  | error e => simp [hparse, Except.toOption] at h
  | ok page =>
    obtain ⟨total', cursor', hits⟩ := page
    simp only [hparse, Except.toOption, Option.map_some, Option.some.injEq, Prod.mk.injEq] at h
    obtain ⟨rfl, rfl, hids⟩ := h
    have hhits : hits = ids.map readHit := by
      rw [← List.forall₂_eq_eq_eq, List.forall₂_map_left_iff, List.forall₂_map_right_iff] at hids
      rw [← List.forall₂_eq_eq_eq, List.forall₂_map_right_iff]
      exact hids.imp fun hit id hid => eq_of_bareId? hid
    rw [hhits]

def partPages : List ResultPage :=
  [⟨3, some "s1", ["1"].map readHit⟩, ⟨3, some "s2", ["2", "3"].map readHit⟩]

theorem served_inParts :
    ServedIn inParts.engine.responses (["1", "2", "3"].map readHit) partPages := by
  constructor
  case some_page => simp [partPages]
  case split => rfl
  case filled => simp [partPages]
  case total => simp [partPages]
  case cursor => simp [partPages]
  case script_eq =>
    refine ⟨_, [.response (pageAnswer 3 "s3" [])], (List.take_append_drop 2 _).symm, ?_, ?_⟩
    · refine .cons (holds_of_bare ?_) (.cons (holds_of_bare ?_) .nil)
      · decide +kernel
      · decide +kernel
    · intro _
      exact ⟨_, [], ⟨3, some "s3", [].map readHit⟩, rfl, holds_of_bare (by decide +kernel), rfl⟩

theorem forQuery_readHit (id : String) :
    Materializer.forQuery allOrders (readHit id) = .ok ⟨some id, []⟩ := by
  cbv

/-- With as many continuations as there are pages. -/
theorem Query.findEach_eq_findList_inParts :
    (∃ j, allOrders.compile = .ok j) ∧
      ∃ documents sources, (allOrders.findList inOne).1 = .ok documents ∧
        StreamsAll (.forQuery allOrders) (["1", "2", "3"].map readHit) partPages inParts.engine
          (allOrders.findEach twoRounds (fun _ => false) inParts).2.engine
          (allOrders.findEach twoRounds (fun _ => false) inParts).1 documents ∧
        StreamsAll RawSource.read (["1", "2", "3"].map readHit) partPages inParts.engine
          (allOrders.findEachRawSource twoRounds (fun _ => false) inParts).2.engine
          (allOrders.findEachRawSource twoRounds (fun _ => false) inParts).1 sources := by
  have hcompiled : allOrders.compile = .ok _ := rfl
  have hwhole : (Scripted.response (pageAnswer 3 "s4" (["1", "2", "3"].map storedHit))).Holds
      ⟨3, some "s4", ["1", "2", "3"].map readHit⟩ := holds_of_bare (by decide +kernel)
  have hlimit : ∀ limit, twoRounds.maxScrollRounds = some limit → partPages.length ≤ limit := by
    simp [twoRounds, partPages]
  have hsingle : inOne.engine.plans = [] := rfl
  obtain ⟨hdocuments, hsources⟩ :=
    Query.findEach_eq_findList hcompiled rfl served_inParts hlimit hsingle rfl hwhole rfl
  obtain ⟨documents, hlist, hstreams⟩ := hdocuments fun hit hhit => by
    obtain ⟨id, -, rfl⟩ := List.mem_map.mp hhit
    exact ⟨_, forQuery_readHit id⟩
  obtain ⟨sources, -, hraw⟩ := hsources fun hit hhit => by
    obtain ⟨id, -, rfl⟩ := List.mem_map.mp hhit
    exact ⟨_, rfl⟩
  exact ⟨⟨_, hcompiled⟩, documents, sources, hlist, hstreams, hraw⟩

end DocumentSearch
