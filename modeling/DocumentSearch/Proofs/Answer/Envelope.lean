import DocumentSearch.Answer.ResultPage
import DocumentSearch.Proofs.Json.Values

/-!
# Envelopes read back

The envelope that a page is sent in holds more than is read from it, in an order of its own. Its
reader finds in it the number of hits, the cursor and the hits that it was made of. Sources come out
as the texts they were written as; `fields` are values and have to be read, which keeps them unless
an object among them begins with the name that embeds a text.
-/

namespace DocumentSearch

open Json (Style Tree)

/-! ### Objects whose members are looked up -/

namespace Json

section Objects

variable {j : Json} {entries : List (String × Json)}

/-- The fields of a record are found by name, whatever the order they were given in. -/
theorem fields?_ofMembers (hj : j = ofMembers entries) (style : Style) (k : Nat)
    (names : List String) :
    (j.toTree style k).fields? names =
      some (names.map fun name => (j.get? name).map (toTree style (k + 1))) := by
  subst hj
  exact fields?_toTree (Members.sorted_ofList entries).nodup names

theorem inside?_ofMembers (hj : j = ofMembers entries) (style : Style) (k depth : Nat) :
    (j.toTree style k).inside? (depth + 1) = some depth := by
  subst hj
  rw [ofMembers]
  cases Members.ofList entries <;> rfl

end Objects

theorem inside?_toTree_array (style : Style) (k depth : Nat) (items : List Json) :
    ((Json.array items).toTree style k).inside? (depth + 1) = some depth := by
  cases items <;> rfl

/-- A value of whole numbers is spelled as null only if it is null. -/
theorem Whole.orNull?_toTree {α : Type} (read : Tree → Option α) (style : Style) (k : Nat)
    {j : Json} (hwhole : j.Whole) (h : j ≠ .null) :
    Tree.orNull? read (j.toTree style k) = (read (j.toTree style k)).map some := by
  cases hwhole with
  | null => exact absurd rfl h
  | bool | number | string => rfl
  | array items => cases items <;> rfl
  | object members => cases members <;> rfl

end Json

/-! ### One hit -/

/-- A hit as it is put into an envelope. -/
structure SentHit where
  id : String
  source : Option Json
  fields : Option (Members Json)

namespace SentHit

def toJson (h : SentHit) : Json :=
  .ofMembers ([("_id", .string h.id)] ++ (h.source.map fun j => ("_source", j)).toList ++
    (h.fields.map fun ms => ("fields", Json.object ms)).toList)

/-- The hit as it should be read: without a score, and with the text of its source. -/
def answer (h : SentHit) : Hit := ⟨h.id, none, h.source.map Json.write, h.fields.getD []⟩

/-- A hit as documents of whole numbers make it, its `fields` nested at most `depth` deep each. Null
for a source would say that there is none. -/
structure Plain (depth : Nat) (h : SentHit) : Prop where
  source : ∀ j ∈ h.source, j ≠ .null ∧ j.Whole
  fields : ∀ ms ∈ h.fields, (Json.object ms).Whole
  shallow : ∀ ms ∈ h.fields, ∀ e ∈ ms, (e.2.toTree .compact 0).nesting ≤ depth

/-- No object within the `fields` begins with the name that embeds a text. A field itself may have
any name. -/
def EmbedsNothing (h : SentHit) : Prop := ∀ ms ∈ h.fields, ∀ e ∈ ms, e.2.EmbedsNothing

theorem get?_toJson (h : SentHit) :
    h.toJson.get? "_id" = some (.string h.id) ∧ h.toJson.get? "_score" = none ∧
      h.toJson.get? "_source" = h.source ∧ h.toJson.get? "fields" = h.fields.map .object := by
  obtain ⟨id, source, fields⟩ := h
  cases source <;> cases fields <;>
    simp [toJson, Json.get?_ofMembers_cons, Json.get?_ofMembers_nil]

end SentHit

namespace ResultPage

variable {k depth : Nat}

theorem rawText?_toTree (k : Nat) (j : Json) :
    rawText? (j.toTree .compact k) = some j.write := by
  rw [Json.toTree_compact k 0, rawText?, ← Tree.symbols_write (Json.allChars_toTree .compact 0 j)]
  exact Utf8.text?_symbols j.write

theorem optionalField_source {source : Option Json} (h : ∀ j ∈ source, j ≠ .null ∧ j.Whole) :
    Json.optionalField none (Tree.orNull? rawText?) (source.map (Json.toTree .compact k)) =
      some (source.map Json.write) := by
  cases source with
  | none => rfl
  | some j =>
    obtain ⟨hnull, hwhole⟩ := h j rfl
    rw [Option.map_some, Json.optionalField, hwhole.orNull?_toTree rawText? .compact k hnull,
      rawText?_toTree]
    rfl

theorem optionalField_fields {fields : Option (Members Json)}
    (hwhole : ∀ ms ∈ fields, (Json.object ms).Whole)
    (hembeds : ∀ ms ∈ fields, ∀ e ∈ ms, e.2.EmbedsNothing)
    (hshallow : ∀ ms ∈ fields, ∀ e ∈ ms, (e.2.toTree .compact 0).nesting ≤ depth) :
    Json.optionalField [] (Json.membersOfTree? (depth + 1))
        ((fields.map Json.object).map (Json.toTree .compact k)) = some (fields.getD []) := by
  cases fields with
  | none => rfl
  | some ms =>
    obtain _ | _ | _ | _ | _ | ⟨_, hsorted, hwhole⟩ := hwhole ms rfl
    refine Json.membersOfTree?_toTree hsorted fun e he => ⟨hwhole e he, hembeds ms rfl e he, ?_⟩
    rw [Json.toTree_compact (k + 1) 0]
    exact hshallow ms rfl e he

theorem hitOf?_toJson (k : Nat) {h : SentHit} (hplain : h.Plain depth) (hembeds : h.EmbedsNothing) :
    hitOf? (depth + 2) (h.toJson.toTree .compact k) = some h.answer := by
  have hinside := Json.inside?_ofMembers (j := h.toJson) rfl .compact k (depth + 1)
  have hfound := Json.fields?_ofMembers (j := h.toJson) rfl .compact k
    ["_id", "_score", "_source", "fields"]
  obtain ⟨hid, hscore, hsource, hfields⟩ := h.get?_toJson
  simp only [List.map_cons, List.map_nil, hid, hscore, hsource, hfields] at hfound
  have hid : ((Json.string h.id).toTree .compact (k + 1)).string? = some h.id :=
    Tree.string?_quoted h.id
  have hsource := optionalField_source (k := k + 1) hplain.source
  have hfields := optionalField_fields (k := k + 1) hplain.fields hembeds hplain.shallow
  rw [hitOf?, hinside, hfound]
  simp only [Json.requiredField, Option.map_some, Option.bind_some, hid, hsource, hfields]
  rfl

/-! ### The envelope around the hits -/

variable {total : Nat} {hits : List SentHit}

theorem hitsOf?_map_toJson (k : Nat) (hplain : ∀ h ∈ hits, h.Plain depth)
    (hembeds : ∀ h ∈ hits, h.EmbedsNothing) :
    hitsOf? (depth + 3) ((Json.array (hits.map SentHit.toJson)).toTree .compact k) =
      some (hits.map SentHit.answer) := by
  rw [hitsOf?, Json.inside?_toTree_array, Json.toTree, Json.treesOf_eq_map, List.map_map]
  simp only [Tree.list?, Tree.items?_ofItems, Option.bind_some]
  exact Json.mapM_map_eq_some fun h hh => hitOf?_toJson (k + 1) (hplain h hh) (hembeds h hh)

theorem totalOf?_ofNat (depth k : Nat) (htotal : total < 0x10000000000000000) :
    totalOf? depth ((Json.ofNat total).toTree .compact k) = some total := by
  have hvalue := Json.Numeral.value?_ofInt (i := total) (by omega) (by omega)
  have hread : ((Json.ofNat total).toTree .compact k).isReadable depth = true := by
    cases depth <;> simp [Json.ofNat, Json.toTree, Json.Number.atom, Tree.isReadable,
      Json.Atom.value?, hvalue]
  rw [totalOf?, if_pos hread]
  simp [Json.ofNat, Json.toTree, Json.Number.atom, Tree.named?, Tree.entries?, Tree.word?,
    Tree.natBelow?, Tree.int?, Tree.number?, hvalue, htotal]

/-- The object inside the envelope. -/
def body (total : Nat) (hits : List SentHit) : Json :=
  .ofMembers [("total", .ofNat total), ("max_score", .number (.float 1.0)),
    ("hits", .array (hits.map SentHit.toJson))]

theorem get?_body (total : Nat) (hits : List SentHit) :
    (body total hits).get? "total" = some (.ofNat total) ∧
      (body total hits).get? "hits" = some (.array (hits.map SentHit.toJson)) := by
  simp [body, Json.get?_ofMembers_cons, Json.get?_ofMembers_nil]

theorem bodyOf?_body (k : Nat) (htotal : total < 0x10000000000000000)
    (hplain : ∀ h ∈ hits, h.Plain depth) (hembeds : ∀ h ∈ hits, h.EmbedsNothing) :
    bodyOf? (depth + 4) ((body total hits).toTree .compact k) =
      some (total, hits.map SentHit.answer) := by
  have hinside := Json.inside?_ofMembers (j := body total hits) rfl .compact k (depth + 3)
  have hfound := Json.fields?_ofMembers (j := body total hits) rfl .compact k ["total", "hits"]
  obtain ⟨htotal', hhits⟩ := get?_body total hits
  simp only [List.map_cons, List.map_nil, htotal', hhits, Option.map_some] at hfound
  rw [bodyOf?, hinside, hfound]
  simp only [Json.requiredField, Json.optionalField, Option.bind_some,
    totalOf?_ofNat (depth + 3) (k + 1) htotal, hitsOf?_map_toJson (k + 1) hplain hembeds]
  rfl

theorem optionalField_cursor (k : Nat) (cursor : Option String) :
    Json.optionalField none (Tree.orNull? Tree.string?)
        ((cursor.map Json.string).map (Json.toTree .compact k)) = some cursor := by
  cases cursor with
  | none => rfl
  | some c =>
    have hread : Tree.orNull? Tree.string? (.quoted c) = ((Tree.quoted c).string?).map some := rfl
    rw [Tree.string?_quoted] at hread
    exact hread

theorem get?_envelope (total : Nat) (cursor : Option String) (hits : List SentHit) :
    (envelope total cursor (hits.map SentHit.toJson)).get? "_scroll_id" =
        cursor.map Json.string ∧
      (envelope total cursor (hits.map SentHit.toJson)).get? "hits" = some (body total hits) := by
  cases cursor <;>
    simp [envelope, body, Json.get?_ofMembers_cons, Json.get?_ofMembers_nil]

theorem ofTree?_envelope (k : Nat) (htotal : total < 0x10000000000000000) (cursor : Option String)
    (hplain : ∀ h ∈ hits, h.Plain depth) (hembeds : ∀ h ∈ hits, h.EmbedsNothing) :
    ofTree? (depth + 5) ((envelope total cursor (hits.map SentHit.toJson)).toTree .compact k) =
      some ⟨total, cursor, hits.map SentHit.answer⟩ := by
  have hinside := Json.inside?_ofMembers (j := envelope total cursor (hits.map SentHit.toJson)) rfl
    .compact k (depth + 4)
  have hfound := Json.fields?_ofMembers (j := envelope total cursor (hits.map SentHit.toJson)) rfl
    .compact k ["_scroll_id", "hits"]
  obtain ⟨hcursor, hbody⟩ := get?_envelope total cursor hits
  simp only [List.map_cons, List.map_nil, hcursor, hbody, Option.map_some] at hfound
  rw [ofTree?, hinside, hfound]
  simp only [Json.requiredField, Option.bind_some, optionalField_cursor (k + 1) cursor,
    bodyOf?_body (k + 1) htotal hplain hembeds]
  rfl

/-- What was put into an envelope is what is read from it. -/
theorem parse_envelope {total : Nat} (htotal : total < 0x10000000000000000) (cursor : Option String)
    {hits : List SentHit} (hplain : ∀ h ∈ hits, h.Plain 122)
    (hembeds : ∀ h ∈ hits, h.EmbedsNothing) :
    parse (envelope total cursor (hits.map SentHit.toJson)).bytes =
      .ok ⟨total, cursor, hits.map SentHit.answer⟩ := by
  have hread := ofTree?_envelope 0 htotal cursor hplain hembeds
  rw [parse, Json.parse?_bytes, Option.bind_some, Json.maxDepth, hread]

/-- Two hits, one with a source and one with `fields`. -/
def twoHits : List SentHit :=
  [⟨"1", some (.object [("status", .string "new")]), none⟩,
    ⟨"2", none, some [("lines", .array [.ofNat 1, .null])]⟩]

theorem parse_envelope_twoHits :
    2 < 0x10000000000000000 ∧ (∀ h ∈ twoHits, h.Plain 122) ∧ (∀ h ∈ twoHits, h.EmbedsNothing) ∧
      parse (envelope 2 (some "s1") (twoHits.map SentHit.toJson)).bytes =
        .ok ⟨2, some "s1", [⟨"1", none, some "\x7b\"status\":\"new\"\x7d", []⟩,
          ⟨"2", none, none, [("lines", .array [.ofNat 1, .null])]⟩]⟩ := by
  have hnew : (Json.object [("status", .string "new")]).Whole :=
    .object _ (List.pairwise_singleton _ _) (by simp [Json.Whole.string])
  have hlines : (Json.array [.ofNat 1, .null]).Whole :=
    .array _ (by simp [Json.Whole.null, Json.ofNat, Json.Whole.number])
  have hplain : ∀ h ∈ twoHits, h.Plain 122 := by
    simp only [twoHits, List.forall_mem_cons]
    refine ⟨⟨by simpa using hnew, by simp, by simp⟩, ⟨by simp, ?_, ?_⟩, by simp⟩
    · simpa using .object _ (List.pairwise_singleton _ _) (by simpa using hlines)
    · simp only [Option.mem_def, Option.some.injEq, forall_eq', List.forall_mem_singleton]
      decide +kernel
  have hembeds : ∀ h ∈ twoHits, h.EmbedsNothing := by
    have hlines : (Json.array [.ofNat 1, .null]).EmbedsNothing :=
      .array _ (by simp [Json.EmbedsNothing.null, Json.ofNat, Json.EmbedsNothing.number])
    simp only [twoHits, List.forall_mem_cons, SentHit.EmbedsNothing]
    exact ⟨by simp, by simpa using hlines, by simp⟩
  have hwritten : (Json.object [("status", .string "new")]).write =
      "\x7b\"status\":\"new\"\x7d" := by
    decide +kernel
  have hread := parse_envelope (by decide : 2 < 0x10000000000000000) (some "s1") hplain hembeds
  refine ⟨by decide, hplain, hembeds, hread.trans ?_⟩
  simp [twoHits, SentHit.answer, hwritten]

/-- A hit with a field whose first member has the name that embeds a text, and another after it. -/
def reservedHit : SentHit :=
  ⟨"1", some (.object []), some [("x", .object [(Json.embeddingName, .ofNat 2), ("a", .ofNat 1)])]⟩

/-- No text stands in the member, so the whole page is refused. -/
theorem not_parse_envelope_reservedHit :
    reservedHit.Plain 122 ∧
      parse (envelope 1 none ([reservedHit].map SentHit.toJson)).bytes =
        .error (.malformed .envelope) := by
  have hlt : Json.embeddingName.toList < "a".toList := by decide +kernel
  have hx : (Json.object [(Json.embeddingName, .ofNat 2), ("a", .ofNat 1)]).Whole :=
    .object _ (List.pairwise_pair.mpr hlt) (by simp [Json.ofNat, Json.Whole.number])
  have hplain : reservedHit.Plain 122 := by
    refine ⟨?_, ?_, ?_⟩
    · simpa [reservedHit] using .object [] List.Pairwise.nil (by simp)
    · simpa [reservedHit] using .object _ (List.pairwise_singleton _ _) (by simpa using hx)
    · simp only [reservedHit, Option.mem_def, Option.some.injEq, forall_eq',
        List.forall_mem_singleton]
      decide +kernel
  have hnone : (ofTree? Json.maxDepth
      ((envelope 1 none ([reservedHit].map SentHit.toJson)).toTree .compact 0)).isNone = true := by
    decide +kernel
  refine ⟨hplain, ?_⟩
  rw [parse, Json.parse?_bytes, Option.bind_some, Option.isNone_iff_eq_none.mp hnone]

end ResultPage

end DocumentSearch
