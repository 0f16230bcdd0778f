import DocumentSearch.Answer.ResultPage
import DocumentSearch.Proofs.Json.Rearranging

/-!
# Envelopes spelled another way

The same page can be sent in many envelopes: engines order members as they like, add some that
nobody asked for, put white space where it may stand, and give the number of hits bare or in an
object. The reader goes by the names of a few members, so it reads the same page from all of them.
Only the text of a source has to stay as it is, since it is handed on.
-/

namespace DocumentSearch

open Json (Tree Padded)

namespace ResultPage

/-! ### What may change -/

/-- An object that gives this number as its one `value`, beside members that can be read to the
end when nested at most `depth` deep. -/
def IsCount (depth n : Nat) (t : Tree) : Prop :=
  ∃ value others entries, t.named? = some entries ∧ entries.Perm (("value", value) :: others) ∧
    value.word? = some n ∧ ∀ e ∈ others, e.1 ≠ "value" ∧ e.2.isReadable depth = true

/-- A number of hits keeps its tokens, or goes between a bare number and an object. -/
inductive TotalEdit (depth : Nat) : Tree → Tree → Prop where
  | respaced {t t' : Tree} (h : t.Respaced t') : TotalEdit depth t t'
  | wrapped {t t' : Tree} {n : Nat} (h : t.word? = some n) (h' : IsCount depth n t') :
    TotalEdit depth t t'
  | bare {t t' : Tree} {n : Nat} (h : IsCount depth n t) (h' : t'.word? = some n) :
    TotalEdit depth t t'

/-- A source is kept as it is; anything else in a hit may get other white space. -/
def HitChange (name : String) : Tree → Tree → Prop :=
  if name = "_source" then Eq else Tree.Respaced

def HitEdit : Tree → Tree → Prop :=
  Tree.Rearranged ["_id", "_score", "_source", "fields"] HitChange

def BodyChange (depth : Nat) (name : String) : Tree → Tree → Prop :=
  if name = "total" then TotalEdit depth
  else if name = "hits" then Tree.Elementwise HitEdit
  else Tree.Respaced

def BodyEdit (depth : Nat) : Tree → Tree → Prop :=
  Tree.Rearranged ["total", "hits"] (BodyChange depth)

def EnvelopeChange (depth : Nat) (name : String) : Tree → Tree → Prop :=
  if name = "hits" then BodyEdit depth else Tree.Respaced

/-- An envelope spelled another way. Three brackets stand around what a number of hits is given
beside. -/
def EnvelopeEdit : Tree → Tree → Prop :=
  Tree.Rearranged ["_scroll_id", "hits"] (EnvelopeChange (Json.maxDepth - 3))

/-! ### The number of hits -/

theorem word?_squeezed (t : Tree) : t.squeezed.word? = t.word? := by
  cases t <;> rfl

theorem exists_atom_of_word? {t : Tree} {n : Nat} (h : t.word? = some n) :
    ∃ a : Json.Atom, t = .atom a ∧ a.value?.isSome := by
  cases t with
  | atom a =>
    refine ⟨a, rfl, ?_⟩
    cases a with
    | number m =>
      have hvalue : m.value? ≠ none := by
        intro hnone
        simp [Tree.word?, Tree.natBelow?, Tree.int?, Tree.number?, hnone] at h
      rw [Json.Atom.value?, Option.isSome_map]
      exact Option.isSome_iff_ne_none.mpr hvalue
    | _ => cases h
  | _ => cases h

theorem isReadable_of_word? {t : Tree} {n : Nat} (h : t.word? = some n) (depth : Nat) :
    t.isReadable depth = true := by
  obtain ⟨a, rfl, ha⟩ := exists_atom_of_word? h
  cases depth <;> exact ha

theorem totalOf?_of_word? {t : Tree} {n : Nat} (h : t.word? = some n) (depth : Nat) :
    totalOf? depth t = some n := by
  have hreadable := isReadable_of_word? h depth
  obtain ⟨a, rfl, -⟩ := exists_atom_of_word? h
  rw [totalOf?, if_pos hreadable]
  exact h

theorem IsCount.totalOf? {depth n : Nat} {t : Tree} (h : IsCount depth n t) :
    totalOf? (depth + 1) t = some n := by
  obtain ⟨value, others, entries, hnamed, hperm, hvalue, hothers⟩ := h
  have hreadable : t.isReadable (depth + 1) = true := by
    rw [Tree.isReadable_of_named? hnamed, List.all_eq_true]
    intro e he
    obtain rfl | he := List.mem_cons.mp (hperm.mem_iff.mp he)
    · exact isReadable_of_word? hvalue depth
    · exact (hothers e he).2
  have hfound : (entries.filter fun e => e.1 = "value") = [("value", value)] := by
    have hnone : (others.filter fun e => e.1 = "value") = [] := by
      rw [List.filter_eq_nil_iff]
      exact fun e he => by simpa using (hothers e he).1
    have hfiltered := hperm.filter fun e => e.1 = "value"
    rw [List.filter_cons_of_pos (by simp), hnone] at hfiltered
    exact List.perm_singleton.mp hfiltered
  rw [ResultPage.totalOf?, if_pos hreadable, hnamed]
  simp only [hfound, hvalue]

theorem totalOf?_squeezed (depth : Nat) (t : Tree) :
    ResultPage.totalOf? depth t.squeezed = ResultPage.totalOf? depth t := by
  rw [ResultPage.totalOf?, ResultPage.totalOf?, t.isReadable_squeezed, t.named?_squeezed]
  cases t.named? with
  | none => rw [Option.map_none, word?_squeezed]
  | some entries =>
    simp only [Option.map_some, List.filter_map, Function.comp_def]
    generalize (entries.filter fun e => e.1 = "value") = found
    match found with
    | [] | _ :: _ :: _ => rfl
    | [(_, value)] => simp only [List.map_cons, List.map_nil, word?_squeezed]

/-- A bare number and an object that gives it are read alike. -/
theorem keeps_totalOf? (depth : Nat) :
    Json.Keeps (TotalEdit depth) (ResultPage.totalOf? (depth + 1)) := by
  intro t t' n hedit hread
  cases hedit with
  | respaced h => exact Json.keeps_respaced (totalOf?_squeezed (depth + 1)) t t' n h hread
  | wrapped h h' => rw [h'.totalOf?, ← hread, totalOf?_of_word? h]
  | bare h h' => rw [totalOf?_of_word? h', ← hread, h.totalOf?]

/-! ### The hits -/

theorem hitOf?_eq_some_iff {depth : Nat} {t : Tree} {h : Hit} :
    hitOf? depth t = some h ↔
      ∃ inner id score source fields, t.inside? depth = some inner ∧
        t.fields? ["_id", "_score", "_source", "fields"] = some [id, score, source, fields] ∧
        Json.requiredField Tree.string? id = some h.id ∧
        Json.optionalField none (Tree.orNull? Tree.float?) score = some h.score ∧
        Json.optionalField none (Tree.orNull? rawText?) source = some h.source ∧
        Json.optionalField [] (Json.membersOfTree? inner) fields = some h.fields := by
  rw [hitOf?]
  constructor
  · intro hread
    split at hread
    next inner id score source fields hinside hfields =>
      simp only [Option.bind_eq_bind, Option.bind_eq_some_iff] at hread
      obtain ⟨_, hid, _, hscore, _, hsource, _, hrest, hhit⟩ := hread
      obtain rfl := Option.some.inj hhit
      exact ⟨inner, id, score, source, fields, hinside, hfields, hid, hscore, hsource, hrest⟩
    next => cases hread
  · rintro ⟨inner, id, score, source, fields, hinside, hfields, hid, hscore, hsource, hrest⟩
    rw [hinside, hfields]
    simp only [hid, hscore, hsource, hrest, Option.bind_eq_bind, Option.bind_some]

theorem string?_squeezed (t : Tree) : t.squeezed.string? = t.string? := by
  cases t <;> rfl

theorem float?_squeezed (t : Tree) : t.squeezed.float? = t.float? := by
  cases t <;> rfl

theorem keeps_hitOf? (depth : Nat) : Json.Keeps HitEdit (hitOf? depth) := by
  intro t t' hit hedit hread
  obtain ⟨inner, id, score, source, fields, hinside, hfields, hid, hscore, hsource, hrest⟩ :=
    hitOf?_eq_some_iff.mp hread
  obtain ⟨fields', hfields', hchanges⟩ := Tree.Rearranged.fields? hedit hfields
  obtain _ | ⟨hid', _ | ⟨hscore', _ | ⟨hsource', _ | ⟨hrest', ⟨⟩⟩⟩⟩⟩ := hchanges
  refine hitOf?_eq_some_iff.mpr ⟨inner, _, _, _, _, ?_, hfields', ?_, ?_, ?_, ?_⟩
  · rw [hedit.inside?, hinside]
  · exact (Json.keeps_respaced string?_squeezed).requiredField hid' hid
  · have hkeeps := Json.keeps_respaced (Json.squeezed_orNull? float?_squeezed)
    exact hkeeps.optionalField hscore' hscore
  · exact (Json.keeps_eq _).optionalField hsource' hsource
  · exact (Json.keeps_respaced (Json.membersOfTree?_squeezed inner)).optionalField hrest' hrest

/-! ### The envelope -/

theorem hitsOf?_eq_some_iff {depth : Nat} {t : Tree} {hits : List Hit} :
    hitsOf? depth t = some hits ↔
      ∃ inner, t.inside? depth = some inner ∧ t.list? (hitOf? inner) = some hits := by
  rw [hitsOf?]
  cases t.inside? depth <;> simp

theorem keeps_hitsOf? (depth : Nat) :
    Json.Keeps (Tree.Elementwise HitEdit) (hitsOf? depth) := by
  intro t t' hits hedit hread
  obtain ⟨inner, hinside, hlist⟩ := hitsOf?_eq_some_iff.mp hread
  refine hitsOf?_eq_some_iff.mpr ⟨inner, ?_, (keeps_hitOf? inner).list? t t' hits hedit hlist⟩
  obtain ⟨items, items', h, h', -⟩ := hedit
  rw [Tree.inside?_of_items? h', ← Tree.inside?_of_items? h, hinside]

theorem bodyOf?_eq_some_iff {depth total : Nat} {t : Tree} {hits : List Hit} :
    bodyOf? depth t = some (total, hits) ↔
      ∃ inner count list, t.inside? depth = some inner ∧
        t.fields? ["total", "hits"] = some [count, list] ∧
        Json.requiredField (totalOf? inner) count = some total ∧
        Json.optionalField [] (hitsOf? inner) list = some hits := by
  rw [bodyOf?]
  constructor
  · intro hread
    split at hread
    next inner count list hinside hfields =>
      simp only [Option.bind_eq_bind, Option.bind_eq_some_iff] at hread
      obtain ⟨_, htotal, _, hhits, hpage⟩ := hread
      cases hpage
      exact ⟨inner, count, list, hinside, hfields, htotal, hhits⟩
    next => cases hread
  · rintro ⟨inner, count, list, hinside, hfields, htotal, hhits⟩
    rw [hinside, hfields]
    simp only [htotal, hhits, Option.bind_eq_bind, Option.bind_some]

section Around

variable {change : Tree → Tree → Prop}

/-- An inner object spelled another way, in which the list of hits may change like this. -/
def BodyAround (depth : Nat) (change : Tree → Tree → Prop) : Tree → Tree → Prop :=
  Tree.Rearranged ["total", "hits"] fun name =>
    if name = "total" then TotalEdit depth else if name = "hits" then change else Tree.Respaced

/-- An envelope spelled another way, in which the inner object may change like this. -/
def EnvelopeAround (change : Tree → Tree → Prop) : Tree → Tree → Prop :=
  Tree.Rearranged ["_scroll_id", "hits"] fun name =>
    if name = "hits" then change else Tree.Respaced

/-- What becomes of the hits becomes of the hits that are read with their number. -/
theorem turns_bodyOf? {f : List Hit → List Hit} (hnone : f [] = []) {depth : Nat}
    (h : Json.Turns change f (hitsOf? (depth + 1))) :
    Json.Turns (BodyAround depth change) (Prod.map id f) (bodyOf? (depth + 2)) := by
  rintro t t' ⟨total, hits⟩ hedit hread
  obtain ⟨inner, count, list, hinside, hfields, htotal, hhits⟩ := bodyOf?_eq_some_iff.mp hread
  obtain ⟨fields', hfields', hchanges⟩ := Tree.Rearranged.fields? hedit hfields
  obtain _ | ⟨hcount', _ | ⟨hlist', ⟨⟩⟩⟩ := hchanges
  obtain rfl := Option.some.inj (hinside.symm.trans (hedit.inside?_succ (depth + 1)))
  refine bodyOf?_eq_some_iff.mpr ⟨depth + 1, _, _, ?_, hfields', ?_, ?_⟩
  · rw [hedit.inside?, hinside]
  · exact (keeps_totalOf? depth).requiredField hcount' htotal
  · exact h.optionalField hnone hlist' hhits

end Around

theorem keeps_bodyOf? (depth : Nat) : Json.Keeps (BodyEdit depth) (bodyOf? (depth + 2)) :=
  turns_bodyOf? (f := id) rfl (keeps_hitsOf? (depth + 1))

theorem ofTree?_eq_some_iff {depth : Nat} {t : Tree} {page : ResultPage} :
    ofTree? depth t = some page ↔
      ∃ inner cursor body, t.inside? depth = some inner ∧
        t.fields? ["_scroll_id", "hits"] = some [cursor, body] ∧
        Json.optionalField none (Tree.orNull? Tree.string?) cursor = some page.cursor ∧
        Json.requiredField (bodyOf? inner) body = some (page.total, page.hits) := by
  rw [ofTree?]
  constructor
  · intro hread
    split at hread
    next inner cursor body hinside hfields =>
      simp only [Option.bind_eq_bind, Option.bind_eq_some_iff] at hread
      obtain ⟨_, hcursor, _, hbody, hpage⟩ := hread
      obtain rfl := Option.some.inj hpage
      exact ⟨inner, cursor, body, hinside, hfields, hcursor, hbody⟩
    next => cases hread
  · rintro ⟨inner, cursor, body, hinside, hfields, hcursor, hbody⟩
    rw [hinside, hfields]
    simp only [hcursor, hbody, Option.bind_eq_bind, Option.bind_some]

/-- What becomes of the hits becomes of the hits of the page. -/
theorem turns_ofTree? {change : Tree → Tree → Prop} {f : List Hit → List Hit}
    (h : Json.Turns change (Prod.map id f) (bodyOf? (Json.maxDepth - 1))) :
    Json.Turns (EnvelopeAround change) (fun page => { page with hits := f page.hits })
      (ofTree? Json.maxDepth) := by
  intro t t' page hedit hread
  obtain ⟨inner, cursor, body, hinside, hfields, hcursor, hbody⟩ := ofTree?_eq_some_iff.mp hread
  obtain ⟨fields', hfields', hchanges⟩ := Tree.Rearranged.fields? hedit hfields
  obtain _ | ⟨hcursor', _ | ⟨hbody', ⟨⟩⟩⟩ := hchanges
  obtain rfl := Option.some.inj (hinside.symm.trans (hedit.inside?_succ (Json.maxDepth - 1)))
  refine ofTree?_eq_some_iff.mpr ⟨Json.maxDepth - 1, _, _, ?_, hfields', ?_, ?_⟩
  · rw [hedit.inside?, hinside]
  · have hkeeps := Json.keeps_respaced (Json.squeezed_orNull? string?_squeezed)
    exact hkeeps.optionalField hcursor' hcursor
  · exact h.requiredField hbody' hbody

theorem keeps_ofTree? : Json.Keeps EnvelopeEdit (ofTree? Json.maxDepth) :=
  turns_ofTree? (f := id) (keeps_bodyOf? (Json.maxDepth - 3))

theorem parse_eq_ok_iff {b : List UInt8} {p : Padded} {page : ResultPage}
    (hb : Padded.parse? (Utf8.decode b) = some p) :
    parse b = .ok page ↔ ofTree? Json.maxDepth p.value = some page := by
  rw [parse, Tree.parse?, hb, Option.map_some, Option.bind_some]
  cases ofTree? Json.maxDepth p.value <;> simp

/-- The page that is read from an envelope is read from every other spelling of it. -/
theorem parse_of_edit {b b' : List UInt8} {p p' : Padded} {page : ResultPage}
    (hb : Padded.parse? (Utf8.decode b) = some p) (hb' : Utf8.decode b' = p'.text)
    (hedit : EnvelopeEdit p.value p'.value) (hpage : parse b = .ok page) : parse b' = .ok page := by
  have hread : Padded.parse? (Utf8.decode b') = some p' := by rw [hb', Padded.parse?_text]
  rw [parse_eq_ok_iff hb] at hpage
  rw [parse_eq_ok_iff hread]
  exact keeps_ofTree? _ _ page hedit hpage

/-- A string of half a surrogate pair, which spells no text. -/
def halfPair : Tree :=
  .atom (.string [.code (.ofNat 13) (.ofNat 8) (.ofNat 0) (.ofNat 0)])

def oneHit : Tree := .record [("_id", .quoted "1"), ("_source", .record [])]

def otherHit : Tree :=
  .ofEntries .indented 3 [("_source", .record []), ("sort", .listed [halfPair]),
    ("_id", .quoted "1")]

def bareCount : Tree := .atom (.number (.ofInt 1))

def countObject : Tree := .record [("relation", .quoted "eq"), ("value", bareCount)]

def oneBody : Tree := .record [("total", bareCount), ("hits", .listed [oneHit])]

def otherBody : Tree :=
  .ofEntries .indented 1 [("hits", .ofItems .indented 2 [otherHit]), ("total", countObject)]

/-- A page with one hit, without white space. -/
def onePage : Padded := ⟨[], .record [("_scroll_id", .quoted "s1"), ("hits", oneBody)], []⟩

/-- The same page with white space, with other members, in another order, and with the number of
hits in an object. -/
def otherPage : Padded where
  before := [Json.space]
  value := .ofEntries .indented 0 [("hits", otherBody), ("_shards", halfPair),
    ("_scroll_id", .quoted "s1")]
  after := [Json.space]

theorem envelopeEdit_otherPage : EnvelopeEdit onePage.value otherPage.value := by
  have hone : bareCount.word? = some 1 := rfl
  have hcount : countObject.named? = some [("relation", .quoted "eq"), ("value", bareCount)] :=
    Tree.named?_ofEntries .compact 0 [("relation", .quoted "eq"), ("value", bareCount)]
  have htotal : BodyChange 124 "total" bareCount countObject := by
    refine .wrapped hone ⟨bareCount, [("relation", .quoted "eq")], _, hcount, .swap .., hone, ?_⟩
    rw [List.forall_mem_singleton]
    exact ⟨by decide, rfl⟩
  have hhit : HitEdit oneHit otherHit := by
    rw [HitEdit, oneHit, otherHit, Tree.record]
    refine Tree.rearranged_ofEntries _ _ _ _ [("_id", .quoted "1"), ("_source", .record [])]
      [("sort", .listed [halfPair])] ?_ ?_ ?_
    · exact .cons ⟨rfl, rfl⟩ (.cons ⟨rfl, rfl⟩ .nil)
    · exact List.forall_mem_singleton.mpr (by decide)
    · exact @List.perm_append_comm _ [_] [_, _]
  have hhits : BodyChange 124 "hits" (.listed [oneHit]) (.ofItems .indented 2 [otherHit]) :=
    ⟨[oneHit], [otherHit], rfl, rfl, .cons hhit .nil⟩
  have hbody : BodyEdit 124 oneBody otherBody := by
    rw [BodyEdit, oneBody, otherBody, Tree.record]
    refine Tree.rearranged_ofEntries _ _ _ _
      [("total", countObject), ("hits", .ofItems .indented 2 [otherHit])] [] ?_
      (List.forall_mem_nil _) (.swap ..)
    exact .cons ⟨rfl, htotal⟩ (.cons ⟨rfl, hhits⟩ .nil)
  rw [EnvelopeEdit, onePage, otherPage, Tree.record]
  dsimp only
  refine Tree.rearranged_ofEntries _ _ _ _ [("_scroll_id", .quoted "s1"), ("hits", otherBody)]
    [("_shards", halfPair)] ?_ ?_ ?_
  · exact .cons ⟨rfl, rfl⟩ (.cons ⟨rfl, hbody⟩ .nil)
  · exact List.forall_mem_singleton.mpr (by decide)
  · exact @List.perm_append_comm _ [_] [_, _]

/-- The bytes of a body that is spelled this way. -/
def bytesOf (p : Padded) : List UInt8 := p.text.flatMap Utf8.Symbol.bytes

theorem parse_of_edit_otherPage :
    Padded.parse? (Utf8.decode (bytesOf onePage)) = some onePage ∧
      Utf8.decode (bytesOf otherPage) = otherPage.text ∧
      EnvelopeEdit onePage.value otherPage.value ∧
      parse (bytesOf onePage) = .ok ⟨1, some "s1", [⟨"1", none, some "\x7b\x7d", []⟩]⟩ ∧
      parse (bytesOf otherPage) = .ok ⟨1, some "s1", [⟨"1", none, some "\x7b\x7d", []⟩]⟩ := by
  have hdecode : Utf8.decode (bytesOf onePage) = onePage.text := by decide +kernel
  have hother : Utf8.decode (bytesOf otherPage) = otherPage.text := by decide +kernel
  have hone : Padded.parse? (Utf8.decode (bytesOf onePage)) = some onePage := by
    rw [hdecode, Padded.parse?_text]
  have hpage : parse (bytesOf onePage) = .ok ⟨1, some "s1", [⟨"1", none, some "\x7b\x7d", []⟩]⟩ :=
    (parse_eq_ok_iff hone).mpr rfl
  exact ⟨hone, hother, envelopeEdit_otherPage, hpage,
    parse_of_edit hone hother envelopeEdit_otherPage hpage⟩

end ResultPage

end DocumentSearch
