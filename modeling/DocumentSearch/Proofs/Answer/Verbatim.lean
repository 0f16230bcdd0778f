import DocumentSearch.Proofs.Answer.Naming
import DocumentSearch.Proofs.Json.Pieces
import DocumentSearch.Proofs.Json.Soundness
import DocumentSearch.Proofs.Text.Utf8

/-!
# Sources are kept as they were sent

The source of a hit may be any value but null, spelled in any way: it is not looked into, however
deep it is nested, and what is kept of it is its text, without the white space around it. That text
is a stretch of the bytes of the body.
-/

namespace DocumentSearch

open Json (Tree Padded)

/-- The hit with this source. -/
def Hit.withSource (s : String) (hit : Hit) : Hit := { hit with source := some s }

namespace ResultPage

/-! ### Putting a source in its place -/

/-- A hit spelled another way, with the value `v` for its source. -/
def HitSourced (v : Tree) (t t' : Tree) : Prop :=
  (∃ id score source fields,
    t.fields? ["_id", "_score", "_source", "fields"] = some [id, score, some source, fields]) ∧
  Tree.Rearranged ["_id", "_score", "_source", "fields"]
    (fun name => if name = "_source" then fun _ v' => v' = v else Tree.Respaced) t t'

/-- A list of hits spelled another way, with the value `v` for the source of the hit at `i`. -/
def HitsSourced (i : Nat) (v : Tree) (t t' : Tree) : Prop :=
  ∃ before hit after before' hit' after', t.items? = some (before ++ hit :: after) ∧
    t'.items? = some (before' ++ hit' :: after') ∧ before.length = i ∧
    List.Forall₂ HitEdit before before' ∧ HitSourced v hit hit' ∧ List.Forall₂ HitEdit after after'

/-- An envelope spelled another way, with the value `v` for the source of the hit at `i`. -/
def EnvelopeSourced (i : Nat) (v : Tree) : Tree → Tree → Prop :=
  EnvelopeAround (BodyAround (Json.maxDepth - 3) (HitsSourced i v))

/-- The page with this source in the hit at `i`. -/
def withSource (page : ResultPage) (i : Nat) (s : String) : ResultPage :=
  { page with hits := page.hits.modify i (Hit.withSource s) }

theorem rawText?_eq_some_iff {v : Tree} {s : String} :
    rawText? v = some s ↔ v.text = Utf8.symbols s := by
  rw [rawText?]
  constructor
  · exact Utf8.symbols_of_text?
  · intro h
    rw [h, Utf8.text?_symbols]

theorem orNull?_rawText? {v : Tree} {s : String} (hv : v ≠ .atom .null)
    (hs : v.text = Utf8.symbols s) : v.orNull? rawText? = some (some s) := by
  have hraw := rawText?_eq_some_iff.mpr hs
  unfold Tree.orNull?
  split
  · exact absurd rfl hv
  · rw [hraw, Option.map_some]

/-- A source that is read is the text of a value that is not null. -/
theorem exists_source_of_optionalField {source : Option Tree} {s : String}
    (h : Json.optionalField none (Tree.orNull? rawText?) source = some (some s)) :
    ∃ v, source = some v ∧ v ≠ .atom .null ∧ v.text = Utf8.symbols s := by
  cases source with
  | none => cases h
  | some v =>
    have hv : v ≠ .atom .null := by
      rintro rfl
      cases h
    refine ⟨v, rfl, hv, ?_⟩
    rw [Json.optionalField] at h
    unfold Tree.orNull? at h
    split at h
    · cases h
    · obtain ⟨s', hraw, hs⟩ := Option.map_eq_some_iff.mp h
      obtain rfl := Option.some.inj hs
      exact rawText?_eq_some_iff.mp hraw

section Reading

variable {v : Tree} {s : String}

theorem turns_hitOf? (hv : v ≠ .atom .null) (hs : v.text = Utf8.symbols s) (depth : Nat) :
    Json.Turns (HitSourced v) (Hit.withSource s) (hitOf? depth) := by
  rintro t t' hit ⟨⟨id₀, score₀, source₀, fields₀, hfound⟩, hedit⟩ hread
  obtain ⟨inner, id, score, source, fields, hinside, hfields, hid, hscore, hsource, hrest⟩ :=
    hitOf?_eq_some_iff.mp hread
  obtain ⟨rfl, rfl, rfl, rfl⟩ : id = id₀ ∧ score = score₀ ∧ source = some source₀ ∧
      fields = fields₀ := by simpa using hfields.symm.trans hfound
  obtain ⟨fields', hfields', hchanges⟩ := hedit.fields? hfields
  obtain _ | ⟨hid', _ | ⟨hscore', _ | ⟨⟨hsource'⟩, _ | ⟨hrest', ⟨⟩⟩⟩⟩⟩ := hchanges
  refine hitOf?_eq_some_iff.mpr ⟨inner, _, _, _, _, ?_, hfields', ?_, ?_, ?_, ?_⟩
  · rw [hedit.inside?, hinside]
  · exact (Json.keeps_respaced string?_squeezed).requiredField hid' hid
  · have hkeeps := Json.keeps_respaced (Json.squeezed_orNull? float?_squeezed)
    exact hkeeps.optionalField hscore' hscore
  · obtain rfl := hsource'
    exact orNull?_rawText? hv hs
  · exact (Json.keeps_respaced (Json.membersOfTree?_squeezed inner)).optionalField hrest' hrest

theorem turns_hitsOf? (hv : v ≠ .atom .null) (hs : v.text = Utf8.symbols s) (i depth : Nat) :
    Json.Turns (HitsSourced i v) (fun hits => hits.modify i (Hit.withSource s))
      (hitsOf? depth) := by
  rintro t t' hits ⟨before, hit, after, before', hit', after', ht, ht', rfl, hbefore, hhit,
    hafter⟩ hread
  obtain ⟨inner, hinside, hlist⟩ := hitsOf?_eq_some_iff.mp hread
  refine hitsOf?_eq_some_iff.mpr ⟨inner, ?_, ?_⟩
  · rw [Tree.inside?_of_items? ht', ← Tree.inside?_of_items? ht, hinside]
  · rw [Tree.list?, ht, Option.bind_some] at hlist
    rw [Tree.list?, ht', Option.bind_some]
    exact (keeps_hitOf? inner).mapM_modify (turns_hitOf? hv hs inner) hbefore hhit hafter hlist

/-- Whatever stands where the source of a hit belongs is read as its source, and nothing else of the
page changes. -/
theorem parse_of_sourced (hv : v ≠ .atom .null) (hs : v.text = Utf8.symbols s) {b b' : List UInt8}
    {p p' : Padded} {page : ResultPage} {i : Nat}
    (hb : Padded.parse? (Utf8.decode b) = some p) (hb' : Utf8.decode b' = p'.text)
    (hsourced : EnvelopeSourced i v p.value p'.value) (hpage : parse b = .ok page) :
    parse b' = .ok (page.withSource i s) := by
  have hread : Padded.parse? (Utf8.decode b') = some p' := by rw [hb', Padded.parse?_text]
  rw [parse_eq_ok_iff hb] at hpage
  rw [parse_eq_ok_iff hread]
  have hhits := turns_hitsOf? hv hs i (Json.maxDepth - 2)
  have hbody := turns_bodyOf? (List.modify_nil (Hit.withSource s) i) hhits
  exact turns_ofTree? hbody p.value p'.value page hsourced hpage

end Reading

/-! ### Where a source comes from -/

theorem exists_padded_of_parse {body : List UInt8} {page : ResultPage} (h : parse body = .ok page) :
    ∃ p : Padded, p.text = Utf8.decode body ∧ ofTree? Json.maxDepth p.value = some page := by
  rw [parse] at h
  split at h
  next page' hread =>
    cases h
    obtain ⟨t, ht, hread⟩ := Option.bind_eq_some_iff.mp hread
    obtain ⟨p, hp, rfl⟩ := Option.map_eq_some_iff.mp ht
    exact ⟨p, Padded.parse?_eq_some_iff.mp hp, hread⟩
  next => cases h

theorem eq_some_of_requiredField {α : Type} {read : Tree → Option α} {field : Option Tree} {a : α}
    (h : Json.requiredField read field = some a) : ∃ t, field = some t ∧ read t = some a :=
  Option.bind_eq_some_iff.mp h

/-- The source of a hit is the text of a value inside the envelope. -/
theorem exists_within_of_source {depth : Nat} {t : Tree} {page : ResultPage}
    (hpage : ofTree? depth t = some page) {hit : Hit} (hhit : hit ∈ page.hits) {s : String}
    (hs : hit.source = some s) :
    ∃ v : Tree, v.Within t ∧ v ≠ .atom .null ∧ v.text = Utf8.symbols s := by
  obtain ⟨depth₁, cursor, body, -, hfields, -, hbody⟩ := ofTree?_eq_some_iff.mp hpage
  obtain ⟨body, rfl, hbody⟩ := eq_some_of_requiredField hbody
  have hinEnvelope : body.Within t := Tree.within_of_fields? hfields (by simp)
  obtain ⟨depth₂, count, list, -, hfields, -, hhits⟩ := bodyOf?_eq_some_iff.mp hbody
  cases list with
  | none =>
    rw [Json.optionalField] at hhits
    rw [← Option.some.inj hhits] at hhit
    cases hhit
  | some list =>
    have hinBody : list.Within body := Tree.within_of_fields? hfields (by simp)
    obtain ⟨depth₃, -, hlist⟩ := hitsOf?_eq_some_iff.mp hhits
    obtain ⟨items, hitems, hread⟩ := Option.bind_eq_some_iff.mp hlist
    obtain ⟨hitTree, hmem, hread⟩ := Tree.exists_of_mem_mapM hread hhit
    have hinList : hitTree.Within list := Tree.within_of_items? hitems hmem
    obtain ⟨_, _, _, source, _, -, hfields, -, -, hsource, -⟩ := hitOf?_eq_some_iff.mp hread
    rw [hs] at hsource
    obtain ⟨v, rfl, hv, htext⟩ := exists_source_of_optionalField hsource
    have hinHit : v.Within hitTree := Tree.within_of_fields? hfields (by simp)
    exact ⟨v, ((hinHit.trans hinList).trans hinBody).trans hinEnvelope, hv, htext⟩

/-- The source of a hit is a stretch of the body. -/
theorem source_infix {body : List UInt8} {page : ResultPage} (hpage : parse body = .ok page)
    {hit : Hit} (hhit : hit ∈ page.hits) {s : String} (hs : hit.source = some s) :
    Utf8.encode s <:+: body := by
  obtain ⟨p, hp, hpage⟩ := exists_padded_of_parse hpage
  obtain ⟨v, hv, -, htext⟩ := exists_within_of_source hpage hhit hs
  have hinfix := (hv.text_infix.trans p.infix_text).flatMap Utf8.Symbol.bytes
  rwa [htext, hp, Utf8.bytes_symbols, Utf8.bytes_decode] at hinfix

end ResultPage

end DocumentSearch
