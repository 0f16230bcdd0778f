import DocumentSearch.Proofs.Answer.Verbatim
import DocumentSearch.Proofs.Engine.Paging
import DocumentSearch.Proofs.Engine.Release
import DocumentSearch.Proofs.Engine.Taking

/-!
# Copying sources

A stream of sources hands out what the engine has sent, hit by hit and byte for byte. Nothing is
read into a source on the way, so nothing of its spelling is lost, be it the order or the repetition
of its members, the digits of a number or the escapes of a string. Each source is a stretch of the
body that it came in. That a stream does not end early, and leave sources out, follows from the
course of its scroll: after a page with a part of the hits it goes on, unless its consumer stops.
-/

namespace DocumentSearch

open Json (Tree Padded)

/-! ### The sources in an answer -/

/-- These are the ids and the sources of all hits of the page that an item holds. There are none
when it holds no page, or one with a hit without a source. -/
def Scripted.GivesSources (item : Scripted) (sources : List RawSource) : Prop :=
  (∃ page, item.Holds page ∧ page.hits.map (fun hit => (hit.id, hit.source)) =
    sources.map fun r => (r.id, some r.source)) ∨
  sources = [] ∧ ∀ page, item.Holds page → ∃ hit ∈ page.hits, hit.source = none

theorem read_eq_ok_iff {hit : Hit} {r : RawSource} :
    RawSource.read hit = .ok r ↔ (hit.id, hit.source) = (r.id, some r.source) := by
  obtain ⟨id, source⟩ := r
  rw [RawSource.read]
  cases hit.source <;> simp

theorem readHits_eq_ok_iff {hits : List Hit} {sources : List RawSource} :
    readHits RawSource.read hits = .ok sources ↔
      hits.map (fun hit => (hit.id, hit.source)) = sources.map fun r => (r.id, some r.source) := by
  rw [readHits_ok_iff, ← List.forall₂_eq_eq_eq, List.forall₂_map_left_iff,
    List.forall₂_map_right_iff]
  simp only [read_eq_ok_iff]

theorem source_at {hits : List Hit} {sources : List RawSource} {i : Nat} {hit : Hit} {text : String}
    (hsame : hits.map (fun hit => (hit.id, hit.source)) =
      sources.map fun r => (r.id, some r.source))
    (hhit : hits[i]? = some hit) (hsource : hit.source = some text) :
    sources[i]? = some ⟨hit.id, text⟩ := by
  have hat := congrArg (·[i]?) hsame
  simp only [List.getElem?_map, hhit, Option.map_some, hsource] at hat
  obtain ⟨⟨id, source⟩, hr, hpair⟩ := Option.map_eq_some_iff.mp hat.symm
  cases hpair
  exact hr

theorem exists_sources {hits : List Hit} (h : ∀ hit ∈ hits, hit.source ≠ none) :
    ∃ sources, readHits RawSource.read hits = .ok sources := by
  refine exists_readHits fun hit hhit => ?_
  obtain ⟨s, hs⟩ := Option.ne_none_iff_exists'.mp (h hit hhit)
  exact ⟨⟨hit.id, s⟩, read_eq_ok_iff.mpr (by rw [hs])⟩

section Holding

variable {α : Type} {read : Materializer α} {item : Scripted} {page : ResultPage}
  {records : List α}

theorem accepted_of_holds (hitem : item.Holds page)
    (hread : readHits read page.hits = .ok records) :
    Scroll.accepted read item = some ⟨page.total, page.cursor, records⟩ := by
  obtain ⟨r, rfl, hok, hparse⟩ := hitem
  refine Scroll.accepted_iff.mpr ⟨hok, page, hparse, ?_⟩
  rw [ResultPage.materialize, hread]

theorem recordsOf_of_holds (hitem : item.Holds page)
    (hread : readHits read page.hits = .ok records) : Scroll.recordsOf read item = records := by
  rw [Scroll.recordsOf, accepted_of_holds hitem hread]

end Holding

theorem givesSources_recordsOf (item : Scripted) :
    item.GivesSources (Scroll.recordsOf RawSource.read item) := by
  rw [Scroll.recordsOf]
  cases haccepted : Scroll.accepted RawSource.read item with
  | some found =>
    cases item with
    | failure reason => cases haccepted
    | response r =>
      obtain ⟨hok, page, hparse, hread⟩ := Scroll.accepted_iff.mp haccepted
      refine .inl ⟨page, ⟨r, rfl, hok, hparse⟩, readHits_eq_ok_iff.mp ?_⟩
      rw [ResultPage.materialize] at hread
      split at hread
      · cases hread
      · cases hread
        assumption
  | none =>
    refine .inr ⟨rfl, fun page hitem => ?_⟩
    by_contra hall
    push Not at hall
    obtain ⟨sources, hread⟩ := exists_sources hall
    cases haccepted.symm.trans (accepted_of_holds hitem hread)

/-- An item gives no other sources than those that a stream reads from it. -/
theorem Scripted.GivesSources.eq_recordsOf {item : Scripted} {sources : List RawSource}
    (h : item.GivesSources sources) : sources = Scroll.recordsOf RawSource.read item := by
  obtain ⟨page, hitem, hsame⟩ | ⟨rfl, hnone⟩ := h
  · exact (recordsOf_of_holds hitem (readHits_eq_ok_iff.mpr hsame)).symm
  · obtain ⟨page, hitem, hsame⟩ | ⟨heq, -⟩ := givesSources_recordsOf item
    · obtain ⟨hit, hhit, hsource⟩ := hnone page hitem
      have hmem := List.mem_map_of_mem (f := fun hit : Hit => (hit.id, hit.source)) hhit
      rw [hsame, List.mem_map] at hmem
      obtain ⟨r, -, hpair⟩ := hmem
      simp [hsource] at hpair
    · exact heq.symm

theorem eq_map_recordsOf {taken : List Scripted} {sources : List (List RawSource)}
    (h : List.Forall₂ Scripted.GivesSources taken sources) :
    sources = taken.map (Scroll.recordsOf RawSource.read) := by
  induction h with
  | nil => rfl
  | cons hitem _ ih => rw [List.map_cons, ← hitem.eq_recordsOf, ← ih]

/-- A source that is given by an item is a stretch of its body. -/
theorem Scripted.GivesSources.infix_body {item : Scripted} {sources : List RawSource}
    (h : item.GivesSources sources) {r : RawSource} (hr : r ∈ sources) :
    ∃ answer, item = .response answer ∧ Utf8.encode r.source <:+: answer.body := by
  obtain ⟨page, ⟨answer, rfl, -, hparse⟩, hsame⟩ | ⟨rfl, -⟩ := h
  · have hmem : (r.id, some r.source) ∈ page.hits.map fun hit => (hit.id, hit.source) := by
      rw [hsame]
      exact List.mem_map_of_mem hr
    obtain ⟨hit, hhit, heq⟩ := List.mem_map.mp hmem
    exact ⟨answer, rfl, ResultPage.source_infix hparse hhit (Prod.mk.inj heq).2⟩
  · cases hr

/-! ### Streams of sources -/

/-- Answers that lead a stream on to the item after them, if its consumer does not stop: each holds
a page with a part of the hits, of which none is without a source, and a round may follow it. To
the first item of its script a stream comes without being led. -/
structure LeadsOn (config : StoreConfig) (answers : List Scripted) (pages : List ResultPage) :
    Prop where
  holds : List.Forall₂ Scripted.Holds answers pages
  parts : ∀ page ∈ pages, page.IsPart
  sourced : ∀ page ∈ pages, ∀ hit ∈ page.hits, hit.source ≠ none
  rounds : ∀ limit, config.maxScrollRounds = some limit → pages.length ≤ limit

/-- From `before` to `after` a stream has taken these items from the script and has read these
sources from them, and it has handed out `records`. -/
structure StreamsSources (q : Query) (config : StoreConfig) (stop : List RawSource → Bool)
    (before after : Engine) (records : List RawSource) (taken : List Scripted)
    (sources : List (List RawSource)) : Prop where
  script_eq : before.responses = taken ++ after.responses
  gives : List.Forall₂ Scripted.GivesSources taken sources
  /-- All sources are handed out, in order, up to where the consumer stops. -/
  records_eq : records = cutAfter stop sources.flatten
  infix_body : ∀ r ∈ records, ∃ answer, .response answer ∈ taken ∧
    Utf8.encode r.source <:+: answer.body
  /-- The next item is taken, as far as answers lead the stream on, unless the consumer stops. -/
  goes_on : ∀ j answers pages item rest, q.compile = .ok j → before.plans = [] →
    before.responses = answers ++ item :: rest → LeadsOn config answers pages →
    answers ++ [item] <+: taken ∨ (records ≠ [] ∧ stop records = true)

/-- The record is handed out at place `k`, unless the consumer stops before it. -/
def HandedOutAt (stop : List RawSource → Bool) (records : List RawSource) (k : Nat)
    (r : RawSource) : Prop :=
  records[k]? = some r ∨ (records.length ≤ k ∧ records ≠ [] ∧ stop records = true)

theorem handsOut_scroll {α : Type} (q : Query) (s : Scroll α) (h : Host) :
    s.HandsOut h.engine (q.scroll s h).2.engine (q.scroll s h).1.records := by
  have hengine := engine_compileText (h := h) q
  rw [Query.scroll]
  generalize q.compileText h = compiled at hengine ⊢
  obtain ⟨outcome, h'⟩ := compiled
  dsimp only at hengine
  rw [← hengine]
  cases outcome with
  | ok text => exact s.handsOut_run _ _ text h'
  | error e => exact Scroll.handsOut_nil (List.nil_append _).symm rfl
  | cancelled => exact Scroll.handsOut_nil (List.nil_append _).symm rfl

/-- The item after pages with parts of the hits is taken, unless the consumer stops. -/
theorem prefix_taken_scroll {α : Type} {q : Query} {s : Scroll α} {h : Host} {j : Json}
    (hcompiled : q.compile = .ok j) (hplans : h.engine.plans = []) {taken : List Scripted}
    (htaken : h.engine.responses = taken ++ (q.scroll s h).2.engine.responses)
    {answers rest : List Scripted} {item : Scripted} {pages : List ResultPage}
    (hscript : h.engine.responses = answers ++ item :: rest)
    (hanswers : List.Forall₂ Scripted.Holds answers pages)
    (hparts : ∀ page ∈ pages, page.IsPart ∧ ∃ records, readHits s.read page.hits = .ok records)
    (hlimit : ∀ limit, s.maxRounds = some limit → pages.length ≤ limit) :
    answers ++ [item] <+: taken ∨
      ((q.scroll s h).1.records ≠ [] ∧ s.stop (q.scroll s h).1.records = true) := by
  let m := q.recordType.mapping
  let sent := h.record (.queryBytes (Utf8.encode j.write).length)
  have hscroll : q.scroll s h = s.run m.docType m.index j.write sent :=
    Query.scroll_of_ok hcompiled s
  have hsession := Scroll.session_run (s := s) (h := sent) hplans m.docType m.index j.write
  dsimp only at hsession
  set c := s.follow "404 for query?" 0 [] sent.engine.responses with hc
  have htake : taken = h.engine.responses.take (c.asked.length + 1) := by
    rw [hscroll, hsession.script_eq] at htaken
    exact List.append_cancel_right (htaken.symm.trans (List.take_append_drop _ _).symm)
  have hrecords : (q.scroll s h).1.records = (handOut s.stop [] c.records).1 := by
    rw [hscroll, hsession.records_eq, handOut_eq_cutAfter]
    rfl
  cases hstopped : (handOut s.stop [] c.records).2 with
  | true =>
    right
    rw [hrecords]
    exact stop_handOut hstopped
  | false =>
    left
    have hscript' : sent.engine.responses = answers ++ item :: rest := hscript
    have hpast : answers.length ≤ c.asked.length := by
      rw [hc, hscript'] at hstopped ⊢
      exact Scroll.length_le_asked hanswers hparts (by simpa using hlimit) _ hstopped
    rw [htake, hscript, List.prefix_take_iff]
    exact ⟨⟨rest, (List.append_cons answers item rest).symm⟩, by simpa using hpast⟩

theorem streamsSources_findEachRawSource (q : Query) (config : StoreConfig)
    (stop : List RawSource → Bool) (h : Host) :
    ∃ taken sources, StreamsSources q config stop h.engine
      (q.findEachRawSource config stop h).2.engine
      (q.findEachRawSource config stop h).1.records taken sources := by
  let s : Scroll RawSource := ⟨RawSource.read, stop, config.maxScrollRounds⟩
  obtain ⟨taken, heq, hrecords⟩ := handsOut_scroll q s h
  refine ⟨taken, taken.map (Scroll.recordsOf RawSource.read), ?_⟩
  constructor
  case script_eq => exact heq
  case gives =>
    rw [List.forall₂_map_right_iff, List.forall₂_same]
    exact fun item _ => givesSources_recordsOf item
  case records_eq => exact hrecords
  case infix_body =>
    intro r hr
    have hcut : r ∈ cutAfter s.stop (taken.flatMap (Scroll.recordsOf s.read)) := hrecords ▸ hr
    obtain ⟨item, hitem, hr⟩ := List.mem_flatMap.mp ((prefix_cutAfter s.stop _).subset hcut)
    obtain ⟨answer, rfl, hinfix⟩ := (givesSources_recordsOf item).infix_body hr
    exact ⟨answer, hitem, hinfix⟩
  case goes_on =>
    intro j answers pages item rest hcompiled hplans hscript hleads
    refine prefix_taken_scroll hcompiled hplans heq hscript hleads.holds ?_ hleads.rounds
    exact fun page hpage =>
      ⟨hleads.parts page hpage, exists_sources (hleads.sourced page hpage)⟩

theorem handedOutAt_cutAfter {stop : List RawSource → Bool} {sources : List RawSource} {k : Nat}
    {r : RawSource} (h : sources[k]? = some r) :
    HandedOutAt stop (cutAfter stop sources) k r := by
  obtain ⟨rest, heq⟩ := prefix_cutAfter stop sources
  rcases Nat.lt_or_ge k (cutAfter stop sources).length with hlt | hle
  · left
    exact (List.getElem?_append_left hlt).symm.trans ((congrArg (·[k]?) heq).trans h)
  · right
    refine ⟨hle, stop_cutAfter fun hall => ?_⟩
    rw [hall] at hle
    have hlt := (List.getElem?_eq_some_iff.mp h).1
    omega

theorem LeadsOn.length_recordsOf {config : StoreConfig} {answers : List Scripted}
    {pages : List ResultPage} (h : LeadsOn config answers pages) :
    (answers.flatMap (Scroll.recordsOf RawSource.read)).length =
      (pages.flatMap ResultPage.hits).length := by
  obtain ⟨hholds, -, hsourced, -⟩ := h
  induction hholds with
  | nil => rfl
  | @cons item page answers pages hitem _ ih =>
    obtain ⟨hfirst, hothers⟩ := List.forall_mem_cons.mp hsourced
    obtain ⟨sources, hread⟩ := exists_sources hfirst
    rw [List.flatMap_cons, List.flatMap_cons, List.length_append, List.length_append,
      recordsOf_of_holds hitem hread, length_readHits hread, ih hothers]

/-- A source on a page that a stream comes to is handed out after those of the pages before it, with
the id of its hit. -/
theorem StreamsSources.handedOutAt {q : Query} {config : StoreConfig}
    {stop : List RawSource → Bool} {before after : Engine} {records : List RawSource}
    {taken answers rest : List Scripted} {sources : List (List RawSource)} {j : Json}
    {pages : List ResultPage} {item : Scripted} {page : ResultPage} {i : Nat} {hit : Hit}
    {text : String} (h : StreamsSources q config stop before after records taken sources)
    (hcompiled : q.compile = .ok j) (hplans : before.plans = [])
    (hscript : before.responses = answers ++ item :: rest) (hleads : LeadsOn config answers pages)
    (hitem : item.Holds page) (hsourced : ∀ other ∈ page.hits, other.source ≠ none)
    (hhit : page.hits[i]? = some hit) (hsource : hit.source = some text) :
    HandedOutAt stop records ((pages.flatMap ResultPage.hits).length + i) ⟨hit.id, text⟩ := by
  have hrecords := h.records_eq
  rw [eq_map_recordsOf h.gives, ← List.flatMap_def] at hrecords
  rw [← hleads.length_recordsOf]
  by_cases htaken : answers ++ [item] <+: taken
  · obtain ⟨more, rfl⟩ := htaken
    obtain ⟨own, hown⟩ := exists_sources hsourced
    have hat := source_at (readHits_eq_ok_iff.mp hown) hhit hsource
    have hlt := (List.getElem?_eq_some_iff.mp hat).1
    rw [hrecords]
    refine handedOutAt_cutAfter ?_
    rw [List.flatMap_append, List.flatMap_append, List.flatMap_singleton,
      recordsOf_of_holds hitem hown, List.append_assoc,
      List.getElem?_append_right (Nat.le_add_right _ _), Nat.add_sub_cancel_left,
      List.getElem?_append_left hlt, hat]
  · obtain ⟨hsome, hstop⟩ :=
      (h.goes_on j answers pages item rest hcompiled hplans hscript hleads).resolve_left htaken
    -- What is taken ends among the answers before the item, and so do the records.
    have hbefore : taken <+: answers := by
      have htaken' : taken <+: before.responses := ⟨_, h.script_eq.symm⟩
      have hitem' : answers ++ [item] <+: before.responses := ⟨rest, by simp [hscript]⟩
      have hshort := (List.prefix_or_prefix_of_prefix htaken' hitem').resolve_right htaken
      refine (List.prefix_concat_iff.mp hshort).resolve_left ?_
      rintro rfl
      exact htaken List.prefix_rfl
    have hle := (prefix_cutAfter stop _).length_le.trans
      (hbefore.flatMap (Scroll.recordsOf RawSource.read)).length_le
    rw [← hrecords] at hle
    exact .inr ⟨hle.trans (Nat.le_add_right _ _), hsome, hstop⟩

/-- A value that is not null, spelled in any way, is put in the place of the source of a hit. Then
the hit has the text of the value for its source, and nothing else of the page changes; the text is
read with the id of the hit, and it is a stretch of the body. So it is with all sources that are
read, and with all that a stream hands out, whatever it is given to read and wherever it ends. A
stream that is led on to the answer hands the text out with the id of the hit, at its place after
the hits before it, unless a hit of the page has no source or the consumer stops. -/
theorem sources_verbatim {b b' : List UInt8} {p p' : Padded} {page : ResultPage} {i : Nat}
    {hit : Hit} {v : Tree} {s : String} (hb : Padded.parse? (Utf8.decode b) = some p)
    (hpage : ResultPage.parse b = .ok page) (hhit : page.hits[i]? = some hit)
    (hv : v ≠ .atom .null) (hs : v.text = Utf8.symbols s)
    (hsourced : ResultPage.EnvelopeSourced i v p.value p'.value)
    (hb' : Utf8.decode b' = p'.text) :
    (ResultPage.parse b' = .ok (page.withSource i s) ∧
      RawSource.read (hit.withSource s) = .ok ⟨hit.id, s⟩ ∧
      (∀ sources, (Scripted.response (.ok b')).GivesSources sources →
        (∃ other ∈ (page.withSource i s).hits, other.source = none) ∨
          sources[i]? = some ⟨hit.id, s⟩) ∧
      Utf8.encode s <:+: b') ∧
    (∀ body found other text, ResultPage.parse body = .ok found → other ∈ found.hits →
      other.source = some text → Utf8.encode text <:+: body) ∧
    (∀ (q : Query) (config : StoreConfig) (stop : List RawSource → Bool) (h : Host),
      ∃ taken sources, StreamsSources q config stop h.engine
        (q.findEachRawSource config stop h).2.engine
        (q.findEachRawSource config stop h).1.records taken sources) ∧
    ∀ (q : Query) (config : StoreConfig) (stop : List RawSource → Bool) (h : Host) (j : Json)
      (answers : List Scripted) (pages : List ResultPage) (rest : List Scripted),
      q.compile = .ok j → h.engine.plans = [] →
      h.engine.responses = answers ++ .response (.ok b') :: rest → LeadsOn config answers pages →
      (∃ other ∈ (page.withSource i s).hits, other.source = none) ∨
        HandedOutAt stop (q.findEachRawSource config stop h).1.records
          ((pages.flatMap ResultPage.hits).length + i) ⟨hit.id, s⟩ := by
  have hread := ResultPage.parse_of_sourced hv hs hb hb' hsourced hpage
  have hsource : (page.withSource i s).hits[i]? = some (hit.withSource s) := by
    rw [ResultPage.withSource, List.getElem?_modify_eq, hhit]
    rfl
  refine ⟨⟨hread, rfl, ?_, ?_⟩, ?_, streamsSources_findEachRawSource, ?_⟩
  · rintro sources (⟨found, ⟨answer, heq, -, hparse⟩, hsame⟩ | ⟨-, hnone⟩)
    · obtain rfl := Scripted.response.inj heq
      obtain rfl : page.withSource i s = found := Except.ok.inj (hread.symm.trans hparse)
      have hat := source_at hsame hsource rfl
      exact .inr hat
    · exact .inl (hnone (page.withSource i s) ⟨.ok b', rfl, rfl, hread⟩)
  · exact ResultPage.source_infix hread (List.mem_of_getElem? hsource) rfl
  · exact fun body found other text hparse hother => ResultPage.source_infix hparse hother
  · intro q config stop h j answers pages rest hcompiled hplans hscript hleads
    obtain ⟨taken, sources, hstreams⟩ := streamsSources_findEachRawSource q config stop h
    by_cases hnone : ∃ other ∈ (page.withSource i s).hits, other.source = none
    · exact .inl hnone
    · push Not at hnone
      have hitem : (Scripted.response (.ok b')).Holds (page.withSource i s) :=
        ⟨.ok b', rfl, rfl, hread⟩
      have hhanded :=
        hstreams.handedOutAt hcompiled hplans hscript hleads hitem hnone hsource rfl
      exact .inr hhanded

/-! ### A source that is hard to copy -/

/-- Brackets and quotes stand inside a string, escaped and not; a name stands twice, and the members
are in no order; one number is spelled with an exponent, one with a last zero after the point. -/
def hardSource : Tree :=
  .object (.cons [] (.ofString "b") [] [Json.space]
    (.array (.cons [] (.atom (.number (.ofParts false [.ofNat 1] none
        (some ⟨false, some .plus, .ofNat 0, [.ofNat 5]⟩)))) []
      (.cons [] (.atom (.number (.ofParts true [] (some (.ofNat 1, [.ofNat 0])) none))) [Json.space]
      (.last [Json.space] (.atom (.string (.code (.ofNat 13) (.ofNat 8) (.ofNat 0) (.ofNat 0) ::
        Json.Quoted.ofString "\"]\\\x7d"))) [])))) []
  (.cons (Json.Style.indented.line 0) (.ofString "a") [] [] (.emptyObject []) []
  (.last [Json.space] (.ofString "b") [] [] (.atom .null) [])))

def hardText : String :=
  "\x7b\"b\": [1e+05,-0.10 , \"\\ud800\\\"]\\\\\x7d\"],\n\"a\":\x7b\x7d, \"b\":null\x7d"

def hardHit : Tree := .ofEntries .indented 3 [("_source", hardSource), ("_id", .quoted "1")]

/-- The page with one hit, with white space, and with this source in the hit. -/
def hardPage : Padded where
  before := [Json.space]
  value := .ofEntries .indented 0 [("hits", .ofEntries .indented 1
      [("total", ResultPage.bareCount), ("hits", .ofItems .indented 2 [hardHit])]),
    ("_scroll_id", .quoted "s1")]
  after := Json.Style.indented.line 0

theorem envelopeSourced_hardPage :
    ResultPage.EnvelopeSourced 0 hardSource ResultPage.onePage.value hardPage.value := by
  have hhit : ResultPage.HitSourced hardSource ResultPage.oneHit hardHit := by
    refine ⟨⟨_, _, _, _, rfl⟩, ?_⟩
    rw [ResultPage.oneHit, hardHit, Tree.record]
    refine Tree.rearranged_ofEntries _ _ _ _ [("_id", .quoted "1"), ("_source", hardSource)] [] ?_
      (List.forall_mem_nil _) (.swap ..)
    exact .cons ⟨rfl, rfl⟩ (.cons ⟨rfl, rfl⟩ .nil)
  have hhits : ResultPage.HitsSourced 0 hardSource (.listed [ResultPage.oneHit])
      (.ofItems .indented 2 [hardHit]) :=
    ⟨[], ResultPage.oneHit, [], [], hardHit, [], rfl, rfl, rfl, .nil, hhit, .nil⟩
  have hbody : ResultPage.BodyAround 124 (ResultPage.HitsSourced 0 hardSource) ResultPage.oneBody
      (.ofEntries .indented 1 [("total", ResultPage.bareCount),
        ("hits", .ofItems .indented 2 [hardHit])]) := by
    rw [ResultPage.BodyAround, ResultPage.oneBody, Tree.record]
    refine Tree.rearranged_ofEntries _ _ _ _ [("total", ResultPage.bareCount),
      ("hits", .ofItems .indented 2 [hardHit])] [] ?_ (List.forall_mem_nil _) (.refl _)
    exact .cons ⟨rfl, .respaced rfl⟩ (.cons ⟨rfl, hhits⟩ .nil)
  rw [ResultPage.EnvelopeSourced, ResultPage.EnvelopeAround, ResultPage.onePage, hardPage,
    Tree.record]
  dsimp only
  refine Tree.rearranged_ofEntries _ _ _ _ [("_scroll_id", .quoted "s1"), ("hits", .ofEntries
    .indented 1 [("total", ResultPage.bareCount), ("hits", .ofItems .indented 2 [hardHit])])] []
    ?_ (List.forall_mem_nil _) (.swap ..)
  exact .cons ⟨rfl, rfl⟩ (.cons ⟨rfl, hbody⟩ .nil)

/-- The page comes after one that holds a part of the hits. -/
def behindOne : Host :=
  answering [Scroll.pageAnswer 3 "s1" [storedHit "1"], .ok (ResultPage.bytesOf hardPage)]

theorem leadsOn_one :
    LeadsOn twoRounds [.response (Scroll.pageAnswer 3 "s1" [storedHit "1"])]
      [⟨3, some "s1", ["1"].map readHit⟩] := by
  constructor
  case holds => exact .cons (holds_of_bare (by decide +kernel)) .nil
  case parts =>
    rw [List.forall_mem_singleton]
    exact ⟨by simp, by decide, by simp⟩
  case sourced => simp [readHit]
  case rounds => simp [twoRounds]

theorem sources_verbatim_hardText :
    Padded.parse? (Utf8.decode (ResultPage.bytesOf ResultPage.onePage)) = some ResultPage.onePage ∧
      hardSource.text = Utf8.symbols hardText ∧
      Utf8.decode (ResultPage.bytesOf hardPage) = hardPage.text ∧
      ResultPage.EnvelopeSourced 0 hardSource ResultPage.onePage.value hardPage.value ∧
      ResultPage.parse (ResultPage.bytesOf hardPage) =
        .ok ⟨1, some "s1", [⟨"1", none, some hardText, []⟩]⟩ ∧
      Utf8.encode hardText <:+: ResultPage.bytesOf hardPage ∧
      (∃ j, allOrders.compile = .ok j) ∧ behindOne.engine.plans = [] ∧
      (allOrders.findEachRawSource twoRounds (fun _ => false) behindOne).1.records[1]? =
        some ⟨"1", hardText⟩ := by
  have hdecode : Utf8.decode (ResultPage.bytesOf ResultPage.onePage) = ResultPage.onePage.text := by
    decide +kernel
  have hone : Padded.parse? (Utf8.decode (ResultPage.bytesOf ResultPage.onePage)) =
      some ResultPage.onePage := by
    rw [hdecode, Padded.parse?_text]
  have hpage : ResultPage.parse (ResultPage.bytesOf ResultPage.onePage) =
      .ok ⟨1, some "s1", [⟨"1", none, some "\x7b\x7d", []⟩]⟩ :=
    (ResultPage.parse_eq_ok_iff hone).mpr rfl
  have hnotNull : hardSource ≠ .atom .null := by simp [hardSource]
  have htext : hardSource.text = Utf8.symbols hardText := by decide +kernel
  have hother : Utf8.decode (ResultPage.bytesOf hardPage) = hardPage.text := by decide +kernel
  obtain ⟨⟨hread, -, -, hinfix⟩, -, -, hhanded⟩ :=
    sources_verbatim hone hpage rfl hnotNull htext envelopeSourced_hardPage hother
  have hcompiled : allOrders.compile = .ok _ := rfl
  refine ⟨hone, htext, hother, envelopeSourced_hardPage, hread, hinfix, ⟨_, hcompiled⟩, rfl, ?_⟩
  rcases hhanded allOrders twoRounds (fun _ => false) behindOne _ _ _ [] hcompiled rfl rfl
    leadsOn_one with ⟨other, hmem, hnone⟩ | hat | ⟨-, -, hstop⟩
  · obtain rfl := List.mem_singleton.mp hmem
    cases hnone
  · exact hat
  · cases hstop

end DocumentSearch
