import DocumentSearch.Proofs.Engine.Round
import DocumentSearch.Proofs.Json.Values
import DocumentSearch.Store.Search

/-!
# Lookups

An engine is given documents, or answers to give in their place, and is asked for them by the text
of a scalar. Whatever happens in between, a lookup comes to what was put last under that text, and
takes nothing from the script of searches. A document comes back as it was put, under the id it was
looked up by. There is one exception: an object that begins with the name that embeds a text is
written like any other and read as something else.
-/

namespace DocumentSearch

/-! ### What is put -/

/-- What can be put under an id: a document, or an answer to give instead of one. -/
inductive Put where
  | document (v : Json)
  | response (r : Response)

/-- The answer to a lookup that finds this. -/
def Put.answer : Put → Response
  | .document v => .ok v.bytes
  | .response r => r

def Put.apply (p : Put) (id : String) (e : Engine) : Engine :=
  match p with
  | .document v => e.putDocument id v
  | .response r => e.putResponse id r

theorem Put.apply_eq (p : Put) (id : String) (e : Engine) :
    p.apply id e = e.putResponse id p.answer := by
  cases p <;> rfl

/-- What is done to a store and to its engine. -/
inductive LookupStep where
  | put (id : String) (p : Put)
  | get (t : RecordType) (id : Scalar)

def LookupStep.run (h : Host) : LookupStep → Host
  | .put id p => { h with engine := p.apply id h.engine }
  | .get t id => (t.getById id h).2

/-- The host after a sequence of steps. -/
def runSteps (steps : List LookupStep) (h : Host) : Host := steps.foldl LookupStep.run h

/-- What was put last under `key`. -/
def lastPut? (key : String) : List LookupStep → Option Put
  | [] => none
  | .put id p :: rest => (lastPut? key rest).or (if id = key then some p else none)
  | .get _ _ :: rest => lastPut? key rest

/-! ### One lookup -/

section Lookups

variable {h : Host}

/-- The call that a lookup makes. -/
def RecordType.lookupCall (t : RecordType) (id : Scalar) : Call :=
  .getDocSource t.mapping.docType t.mapping.index id.asText

/-- A lookup reads what is kept under the text of its scalar, and makes one call. -/
theorem RecordType.getById_of_no_plans (hplans : h.engine.plans = []) (t : RecordType)
    (id : Scalar) :
    (t.getById id h).1 = .ofExcept
        (t.readLookup id.asText ((h.engine.documents.lookup id.asText).getD .notFound)) ∧
      (t.getById id h).2.engine = h.engine.noted (t.lookupCall id) := by
  simp only [getById, lookUp, Action.timed, Action.observed, Action.thenDo, Action.call,
    Engine.getDocSource, Engine.call_of_no_plans hplans, Action.ofExcept]
  exact ⟨rfl, rfl⟩

/-- Under each id a step keeps what it puts there, or what was there before. -/
theorem LookupStep.engine_run (hplans : h.engine.plans = []) (s : LookupStep) :
    (s.run h).engine.plans = [] ∧ ∀ key, (s.run h).engine.documents.lookup key =
      ((lastPut? key [s]).map Put.answer).or (h.engine.documents.lookup key) := by
  cases s with
  | put id p =>
    rw [LookupStep.run, Put.apply_eq]
    refine ⟨hplans, fun key => ?_⟩
    change ((id, p.answer) :: h.engine.documents).lookup key = _
    rw [List.lookup_cons, lastPut?, lastPut?]
    by_cases heq : id = key
    · simp [heq]
    · have hne : (key == id) = false := beq_eq_false_iff_ne.mpr (Ne.symm heq)
      simp [heq, hne]
  | get t id =>
    rw [LookupStep.run, (t.getById_of_no_plans hplans id).2]
    exact ⟨hplans, fun _ => rfl⟩

theorem lastPut?_cons (key : String) (s : LookupStep) (rest : List LookupStep) :
    lastPut? key (s :: rest) = (lastPut? key rest).or (lastPut? key [s]) := by
  cases s with
  | put id p => simp [lastPut?]
  | get t id => simp [lastPut?]

/-- After any steps each id has what was put there last, or what was there at first. -/
theorem engine_runSteps (hplans : h.engine.plans = []) (steps : List LookupStep) :
    (runSteps steps h).engine.plans = [] ∧
      ∀ key, (runSteps steps h).engine.documents.lookup key =
        ((lastPut? key steps).map Put.answer).or (h.engine.documents.lookup key) := by
  induction steps generalizing h with
  | nil => exact ⟨hplans, fun _ => rfl⟩
  | cons s rest ih =>
    obtain ⟨hstep, hfirst⟩ := s.engine_run hplans
    obtain ⟨hkept, hothers⟩ := ih hstep
    refine ⟨hkept, fun key => ?_⟩
    change (runSteps rest (s.run h)).engine.documents.lookup key = _
    rw [hothers, hfirst, lastPut?_cons key s rest, Option.map_or, Option.or_assoc]

end Lookups

/-! ### Reading what was put -/

namespace Json

theorem Atom.value?_ne_object (a : Atom) (members : List (String × Json)) :
    a.value? ≠ some (.object members) := by
  cases a <;> simp [Atom.value?]

/-- What is not an object is not read as one, whatever is embedded in it. -/
theorem valueWith?_toTree_ne_object {v : Json} (hv : ∀ members, v ≠ .object members)
    (embedded : List Utf8.Symbol → Option Json) (depth k : Nat) (style : Style)
    (members : List (String × Json)) :
    valueWith? embedded depth (v.toTree style k) ≠ some (.object members) := by
  have hatom (a : Atom) : valueWith? embedded depth (.atom a) ≠ some (.object members) := by
    have hvalue : valueWith? embedded depth (.atom a) = a.value? := by cases depth <;> rfl
    rw [hvalue]
    exact a.value?_ne_object members
  cases v with
  | null | bool b | number n | string s => exact hatom _
  | object members => exact absurd rfl (hv members)
  | array items =>
    rw [toTree]
    intro hread
    cases depth with
    | zero =>
      generalize treesOf style (k + 1) items = trees at hread
      cases trees <;> cases hread
    | succ depth =>
      rw [valueWith?_ofItems] at hread
      obtain ⟨items, -, hitems⟩ := Option.map_eq_some_iff.mp hread
      cases hitems

end Json

namespace RecordType

variable {t : RecordType} {key : String} {v : Json}

theorem readLookup_of_object {members : List (String × Json)} (hwhole : (Json.object members).Whole)
    (hembeds : (Json.object members).EmbedsNothing)
    (hnesting : ((Json.object members).toTree .compact 0).nesting ≤ Json.maxDepth) :
    t.readLookup key (.ok (Json.object members).bytes) = .ok (some ⟨some key, members⟩) := by
  have hread := Json.read?_symbols_write hwhole hembeds hnesting
  simp [readLookup, Response.content, Response.ok, readSource, Json.bytes, Utf8.decode_encode, hread]

theorem readLookup_of_not_object (t : RecordType) (key : String)
    (hv : ∀ members, v ≠ .object members) :
    ∃ cause, t.readLookup key (.ok v.bytes) = .error (.malformed cause) := by
  obtain ⟨embedded, hread⟩ := Json.exists_read?_symbols_write v
  have hne := Json.valueWith?_toTree_ne_object hv embedded Json.maxDepth 0 .compact
  rw [← hread] at hne
  simp only [readLookup, Response.content, Response.ok, if_true, readSource, Json.bytes,
    Utf8.decode_encode]
  cases hvalue : Json.read? (Utf8.symbols v.write) with
  | none => exact ⟨_, rfl⟩
  | some j =>
    cases j with
    | object members => exact absurd hvalue (hne members)
    | _ => exact ⟨_, rfl⟩

/-- The outcome does not depend on the type: the id that a source names gives way. -/
theorem readLookup_eq (t t' : RecordType) (key : String) (r : Response) :
    t.readLookup key r = t'.readLookup key r := by
  rw [readLookup, readLookup]
  cases r.content s!"404 for docId:{key}" with
  | error e => rfl
  | ok body =>
    simp only [readSource]
    cases Json.read? (Utf8.decode body) with
    | none => rfl
    | some j => cases j <;> rfl

end RecordType

/-! ### Any lookup -/

/-- What a lookup comes to, by what was put last under its id. -/
structure LooksUp (key : String) (last : Option Put) (outcome : Outcome (Option Document)) :
    Prop where
  absent : last = none → outcome = .ok none
  document : ∀ members, last = some (.document (.object members)) → (Json.object members).Whole →
    (Json.object members).EmbedsNothing →
    ((Json.object members).toTree .compact 0).nesting ≤ Json.maxDepth →
    outcome = .ok (some ⟨some key, members⟩)
  notObject : ∀ v, last = some (.document v) → (∀ members, v ≠ .object members) →
    ∃ cause, outcome = .error (.malformed cause)
  notFound : ∀ body, last = some (.response ⟨404, body⟩) → outcome = .ok none
  unexpected : ∀ r, last = some (.response r) → r.status ≠ 200 → r.status ≠ 404 →
    outcome = .error (.unexpectedStatus r.status r.text)

theorem RecordType.looksUp_readLookup (t : RecordType) (key : String) (last : Option Put) :
    LooksUp key last (.ofExcept (t.readLookup key ((last.map Put.answer).getD .notFound))) where
  absent := by
    rintro rfl
    rfl
  document := by
    rintro members rfl hwhole hembeds hnesting
    exact congrArg Outcome.ofExcept (readLookup_of_object hwhole hembeds hnesting)
  notObject := by
    rintro v rfl hv
    obtain ⟨cause, hcause⟩ := t.readLookup_of_not_object key hv
    exact ⟨cause, congrArg Outcome.ofExcept hcause⟩
  notFound := by
    rintro body rfl
    rfl
  unexpected := by
    rintro r rfl hok hmissing
    simp [Put.answer, readLookup, Response.content, hok, hmissing, StoreError.isNotFound,
      StoreError.category, Outcome.ofExcept]

/-- What a lookup comes to depends on nothing but what was put last under its id. -/
theorem getById_runSteps {h : Host} (hplans : h.engine.plans = [])
    (hnone : h.engine.documents = []) (steps : List LookupStep) (t : RecordType) (id : Scalar) :
    (t.getById id (runSteps steps h)).1 = .ofExcept
      (t.readLookup id.asText (((lastPut? id.asText steps).map Put.answer).getD .notFound)) := by
  obtain ⟨hkept, hdocuments⟩ := engine_runSteps hplans steps
  rw [(t.getById_of_no_plans hkept id).1, hdocuments, hnone, List.lookup_nil, Option.or_none]

/-- After any puts and lookups, a lookup comes to what was put last under the text of its scalar,
and to nothing that depends on anything else. It makes one call, and changes nothing else about the
engine. -/
theorem getById_of_lastPut {h : Host} (hplans : h.engine.plans = [])
    (hnone : h.engine.documents = []) (steps : List LookupStep) (t : RecordType) (id : Scalar) :
    let before := runSteps steps h
    let after := t.getById id before
    LooksUp id.asText (lastPut? id.asText steps) after.1 ∧
      after.2.engine = { before.engine with
        calls := before.engine.calls ++
          [.getDocSource t.mapping.docType t.mapping.index id.asText] } ∧
      ∀ (h' : Host) (steps' : List LookupStep) (t' : RecordType) (id' : Scalar),
        h'.engine.plans = [] → h'.engine.documents = [] → id'.asText = id.asText →
        lastPut? id.asText steps' = lastPut? id.asText steps →
        (t'.getById id' (runSteps steps' h')).1 = after.1 := by
  intro before after
  have hafter := getById_runSteps hplans hnone steps t id
  refine ⟨?_, ?_, ?_⟩
  · rw [hafter]
    exact t.looksUp_readLookup id.asText (lastPut? id.asText steps)
  · exact (t.getById_of_no_plans (engine_runSteps hplans steps).1 id).2
  · intro h' steps' t' id' hplans' hnone' hid hlast
    rw [getById_runSteps hplans' hnone', hid, hlast, t'.readLookup_eq t]
    exact hafter.symm

/-- Articles that are looked up by number. -/
def articles : RecordType := ⟨"article", Mapping.empty "articles" "article", "number"⟩

/-- An article is put twice and looked up in between, under another number than it names. -/
def putTwice : List LookupStep :=
  [.put "7" (.document (.object [("number", .string "1")])), .get articles (.text "7"),
    .put "true" (.response ⟨500, []⟩), .put "7" (.document (.object [("number", .string "9")]))]

theorem getById_of_lastPut_putTwice :
    let h : Host := { Host.blank with engine := Engine.blank.pushFailure "not for a lookup" }
    h.engine.plans = [] ∧ h.engine.documents = [] ∧
      (articles.getById (.integer 7) (runSteps putTwice h)).1 =
        .ok (some ⟨some "7", [("number", .string "9")]⟩) ∧
      (articles.getById (.boolean true) (runSteps putTwice h)).1 =
        .error (.unexpectedStatus 500 "") := by
  intro h
  have hwhole : (Json.object [("number", .string "9")]).Whole :=
    .object _ (List.pairwise_singleton _ _) (by simp [Json.Whole.string])
  have hembeds : (Json.object [("number", .string "9")]).EmbedsNothing :=
    .object _ (by simp [Json.embeddingName]) (by simp [Json.EmbedsNothing.string])
  have hseven := (getById_of_lastPut (h := h) rfl rfl putTwice articles (.integer 7)).1
  have htrue := (getById_of_lastPut (h := h) rfl rfl putTwice articles (.boolean true)).1
  refine ⟨rfl, rfl, ?_, ?_⟩
  · exact hseven.document _ rfl hwhole hembeds (by decide +kernel)
  · exact htrue.unexpected ⟨500, []⟩ rfl (by decide) (by decide)

/-- An object that begins with the name that embeds a text, and has no text there. -/
def reservedSource : List (String × Json) :=
  [(Json.embeddingName, .ofNat 2), ("a", .ofNat 1)]

/-- It is put, and nothing can be read of it when it is looked up. -/
theorem not_getById_of_lastPut_reservedSource :
    (Json.object reservedSource).Whole ∧
      ((Json.object reservedSource).toTree .compact 0).nesting ≤ Json.maxDepth ∧
      lastPut? "1" [.put "1" (.document (.object reservedSource))] =
        some (.document (.object reservedSource)) ∧
      (articles.getById (.text "1")
        (runSteps [.put "1" (.document (.object reservedSource))] .blank)).1 =
          .error (.malformed .sourceText) := by
  have hlt : Json.embeddingName.toList < "a".toList := by decide +kernel
  have hwhole : (Json.object reservedSource).Whole :=
    .object _ (List.pairwise_pair.mpr hlt) (by simp [reservedSource, Json.ofNat, Json.Whole.number])
  have hlast : lastPut? "1" [.put "1" (.document (.object reservedSource))] =
      some (.document (.object reservedSource)) := rfl
  refine ⟨hwhole, by decide +kernel, hlast, ?_⟩
  -- Whatever reads embedded texts, there is no text in the first member to read.
  obtain ⟨embedded, hread⟩ := Json.exists_read?_symbols_write (.object reservedSource)
  have hnone : Json.read? (Utf8.symbols (Json.object reservedSource).write) = none := by
    rw [hread]
    rfl
  have htext : (Scalar.text "1").asText = "1" := rfl
  rw [getById_runSteps rfl rfl, htext, hlast]
  simp [Put.answer, RecordType.readLookup, Response.content, Response.ok, RecordType.readSource,
    Json.bytes, Utf8.decode_encode, hnone, Outcome.ofExcept]

end DocumentSearch
