import DocumentSearch.Answer.Materialize
import DocumentSearch.Proofs.Document.Cells
import DocumentSearch.Proofs.Json.Values
import Mathlib.Data.List.Pairwise

/-!
# Records from selected fields

The fields of a hit are set one after the other on top of what its source holds. A field is taken
if its path is mapped, no list is on the way to it, and it has one value; the others are passed
over. When the paths that are taken part from each other, the record is told place by place: each
field that is taken is found at its path, and what parts from all of them is what the source held
there. The order of the fields makes no difference then.
-/

namespace DocumentSearch

/-! ### Settings that do not meet -/

namespace Document

/-- Sets all values, one after the other. -/
def setAll (d : Document) (cells : List (String × Json)) : Document :=
  cells.foldl (fun d cell => d.set cell.1 cell.2) d

theorem get?_blank (path : String) : blank.get? path = none := by
  obtain ⟨s, rest, hsegments⟩ := List.exists_cons_of_ne_nil (Path.segments_ne_nil path)
  rw [get?, hsegments]
  rfl

theorem setAll_cons (d : Document) (cell : String × Json) (rest : List (String × Json)) :
    d.setAll (cell :: rest) = (d.set cell.1 cell.2).setAll rest := rfl

variable {cells : List (String × Json)}

theorem id_setAll (d : Document) (cells : List (String × Json)) : (d.setAll cells).id = d.id := by
  induction cells generalizing d with
  | nil => rfl
  | cons cell rest ih => exact ih _

theorem get?_setAll_of_apart {path : String} (d : Document)
    (h : ∀ cell ∈ cells, Path.Apart cell.1 path) : (d.setAll cells).get? path = d.get? path := by
  induction cells generalizing d with
  | nil => rfl
  | cons cell rest ih =>
    rw [List.forall_mem_cons] at h
    rw [setAll_cons, ih _ h.2, get?_set_of_apart _ _ _ h.1]

theorem get?_setAll_of_mem (d : Document) (h : cells.Pairwise fun a b => Path.Apart a.1 b.1)
    {cell : String × Json} (hcell : cell ∈ cells) :
    (d.setAll cells).get? cell.1 = some cell.2 := by
  induction cells generalizing d with
  | nil => cases hcell
  | cons first rest ih =>
    obtain ⟨hfirst, hrest⟩ := List.pairwise_cons.mp h
    rw [setAll_cons]
    -- What is set first stays, since all later settings part from it.
    rcases List.mem_cons.mp hcell with rfl | hcell
    · rw [get?_setAll_of_apart _ fun other hother => (hfirst other hother).symm, get?_set_self]
    · exact ih _ hrest hcell

theorem setAll_perm (d : Document) (h : cells.Pairwise fun a b => Path.Apart a.1 b.1)
    {order : List (String × Json)} (hperm : order.Perm cells) : d.setAll order = d.setAll cells := by
  have : Std.Symm fun a b : String × Json => Path.Apart a.1 b.1 := ⟨fun _ _ h => h.symm⟩
  refine (hperm.symm.foldl_eq' (fun a ha b hb d => ?_) d).symm
  by_cases hab : a = b
  · rw [hab]
  · exact set_comm d a.1 a.2 b.2 (h.forall ha hb hab)

end Document

/-! ### Fields that are taken -/

/-- A field shows a value as it is, or as the only element of an array. An array stands for its
elements and is itself never the value. -/
inductive ShowsOne : Json → Json → Prop where
  | element (v : Json) : ShowsOne (.array [v]) v
  | plain (v : Json) (h : ∀ items, v ≠ .array items) : ShowsOne v v

theorem singleValue?_eq_some_iff {shown v : Json} :
    Materializer.singleValue? shown = some v ↔ ShowsOne shown v := by
  constructor
  · intro h
    cases shown with
    | array items =>
      obtain _ | ⟨item, _ | _⟩ := items
      · cases h
      · cases h
        exact .element v
      · cases h
    | _ =>
      cases h
      exact .plain _ fun _ => by simp
  · intro h
    cases h with
    | element => rfl
    | plain _ hplain =>
      cases shown with
      | array items => exact absurd rfl (hplain items)
      | _ => rfl

/-- A field gives a value to a record: its path is mapped, no list is on the way, and the value is
the only one. -/
structure Mapping.Takes (m : Mapping) (field : String × Json) (v : Json) : Prop where
  mapped : (m.get? field.1).isSome
  single : m.manyRoot field.1 = none
  shown : ShowsOne field.2 v

namespace Materializer

/-- What a field sets, if it sets anything. -/
def cell? (m : Mapping) (field : String × Json) : Option (String × Json) :=
  if m.containsMany field.1 then none else (singleValue? field.2).map (field.1, ·)

theorem cell?_eq_some_iff {m : Mapping} {field cell : String × Json} :
    cell? m field = some cell ↔ cell.1 = field.1 ∧ m.Takes field cell.2 := by
  obtain ⟨path, v⟩ := cell
  rw [cell?]
  by_cases hmany : m.containsMany field.1 = true
  · simp only [hmany, if_true, reduceCtorEq, false_iff]
    rintro ⟨-, hmapped, hsingle, -⟩
    rw [Mapping.containsMany_eq_false_iff.mpr ⟨hmapped, hsingle⟩] at hmany
    cases hmany
  · obtain ⟨hmapped, hsingle⟩ :=
      Mapping.containsMany_eq_false_iff.mp (Bool.eq_false_iff.mpr hmany)
    rw [if_neg hmany, Option.map_eq_some_iff]
    constructor
    · rintro ⟨w, hw, heq⟩
      obtain ⟨rfl, rfl⟩ := Prod.mk.inj heq
      exact ⟨rfl, hmapped, hsingle, singleValue?_eq_some_iff.mp hw⟩
    · rintro ⟨rfl, htakes⟩
      exact ⟨v, singleValue?_eq_some_iff.mpr htakes.shown, rfl⟩

/-- All that the fields set, in their order. -/
def cells (m : Mapping) (fields : List (String × Json)) : List (String × Json) :=
  fields.filterMap (cell? m)

theorem mem_cells {m : Mapping} {fields : List (String × Json)} {cell : String × Json} :
    cell ∈ cells m fields ↔ ∃ f ∈ fields, cell.1 = f.1 ∧ m.Takes f cell.2 := by
  simp only [cells, List.mem_filterMap, cell?_eq_some_iff]

theorem apart_cells {m : Mapping} {fields : List (String × Json)}
    (h : fields.Pairwise fun f g => ∀ v w, m.Takes f v → m.Takes g w → Path.Apart f.1 g.1) :
    (cells m fields).Pairwise fun a b => Path.Apart a.1 b.1 := by
  refine List.pairwise_filterMap.mpr (h.imp fun hapart a ha b hb => ?_)
  obtain ⟨hpath, htakes⟩ := cell?_eq_some_iff.mp ha
  obtain ⟨hother, htakesOther⟩ := cell?_eq_some_iff.mp hb
  rw [hpath, hother]
  exact hapart _ _ htakes htakesOther

theorem applyFields_eq_setAll (m : Mapping) (d : Document) (fields : List (String × Json)) :
    applyFields m d fields = d.setAll (cells m fields) := by
  rw [Document.setAll, cells, List.foldl_filterMap, applyFields]
  congr 1
  funext d field
  rw [cell?]
  split
  · rfl
  · cases singleValue? field.2 <;> rfl

end Materializer

/-! ### The record of a hit -/

/-- What the source of a hit holds; without a source, that is nothing. -/
def Hit.Seeds (t : RecordType) (hit : Hit) (seed : Document) : Prop :=
  match hit.source with
  | none => seed = .blank
  | some s => t.readSource (Utf8.symbols s) = .ok seed

namespace Materializer

section Seeds

variable {t : RecordType} {hit : Hit} {seed : Document}

theorem source_of_seeds (h : hit.Seeds t seed) :
    source t hit = .ok { seed with id := some hit.id } := by
  cases hsource : hit.source with
  | none =>
    rw [Hit.Seeds, hsource] at h
    rw [source, hsource, h]
    rfl
  | some s =>
    rw [Hit.Seeds, hsource] at h
    simp only [source, hsource, h]

theorem fields_of_seeds (h : hit.Seeds t seed) :
    fields t hit =
      .ok (({ seed with id := some hit.id } : Document).setAll (cells t.mapping hit.fields)) := by
  rw [fields, source_of_seeds h, ← applyFields_eq_setAll]

/-- When the fields that are taken have paths of which none leads on to another, the record of the
hit can be read. It has the id of the hit, each value that is taken at its path, and at each path
that parts from all of these what the source held there. The fields may come in any order. -/
theorem fields_places (hseed : hit.Seeds t seed)
    (hapart : hit.fields.Pairwise fun f g =>
      ∀ v w, t.mapping.Takes f v → t.mapping.Takes g w → Path.Apart f.1 g.1) :
    ∃ record, fields t hit = .ok record ∧ record.id = some hit.id ∧
      (∀ f ∈ hit.fields, ∀ v, t.mapping.Takes f v → record.get? f.1 = some v) ∧
      (∀ path, (∀ f ∈ hit.fields, ∀ v, t.mapping.Takes f v → Path.Apart f.1 path) →
        record.get? path = seed.get? path ∧ (hit.source = none → record.get? path = none)) ∧
      ∀ order : List (String × Json), order.Perm hit.fields →
        fields t { hit with fields := order } = .ok record := by
  have hcells := apart_cells hapart
  refine ⟨_, fields_of_seeds hseed, Document.id_setAll .., ?_, ?_, ?_⟩
  · intro f hf v htakes
    have hmem : (f.1, v) ∈ cells t.mapping hit.fields := mem_cells.mpr ⟨f, hf, rfl, htakes⟩
    exact Document.get?_setAll_of_mem _ hcells hmem
  · intro path hpath
    have hcell : ∀ cell ∈ cells t.mapping hit.fields, Path.Apart cell.1 path := by
      intro cell hcell
      obtain ⟨f, hf, hname, htakes⟩ := mem_cells.mp hcell
      exact hname ▸ hpath f hf _ htakes
    have hsame := Document.get?_setAll_of_apart { seed with id := some hit.id } hcell
    refine ⟨hsame, fun hnone => ?_⟩
    rw [Hit.Seeds, hnone] at hseed
    rw [hsame, hseed]
    exact Document.get?_blank path
  · intro order hperm
    have hordered : Hit.Seeds t { hit with fields := order } seed := hseed
    rw [fields_of_seeds hordered]
    exact congrArg Except.ok (Document.setAll_perm _ hcells (hperm.filterMap _))

end Seeds

/-! ### A number in the way, and lists passed over -/

/-- Orders with one customer and many lines. -/
def orders : RecordType :=
  let mapping := ((((Mapping.empty "order" "order").property "status" .string).property
    "customer.name" .string).property "lines" .list).property "lines.qty" .long
  ⟨"order", mapping, "id"⟩

/-- The source of an order: its customer is a number, and it names an id of its own. -/
def orderSource : List (String × Json) :=
  [("customer", .number (.int 3)), ("id", .string "draft"), ("lines", .array [.bool true])]

/-- Of the fields, the lines and what stands below them are passed over. -/
def orderHit : Hit :=
  ⟨"o-5", none, some (Json.object orderSource).write,
    [("customer.name", .array [.string "Rob"]), ("lines", .null),
      ("lines.qty", .array [.number (.int 1)]), ("status", .string "NEW")]⟩

theorem seeds_orderHit : orderHit.Seeds orders ⟨some "draft", orderSource⟩ := by
  have hwhole : (Json.object orderSource).Whole := by
    refine .object _ (by simp only [Members.Sorted]; decide +kernel) ?_
    simp [orderSource, Json.Whole.string, Json.Whole.number, Json.Whole.bool, Json.Whole.array]
  have hembeds : (Json.object orderSource).EmbedsNothing := by
    refine .object _ (by simp [orderSource, Json.embeddingName]) ?_
    simp [orderSource, Json.EmbedsNothing.string, Json.EmbedsNothing.number,
      Json.EmbedsNothing.bool, Json.EmbedsNothing.array]
  have hread := Json.read?_symbols_write hwhole hembeds (by decide +kernel)
  simp only [Hit.Seeds, orderHit, RecordType.readSource, hread]
  rfl

theorem fields_places_orderHit :
    orderHit.Seeds orders ⟨some "draft", orderSource⟩ ∧
      ∃ record, fields orders orderHit = .ok record ∧ record.id = some "o-5" ∧
        record.get? "customer.name" = some (.string "Rob") ∧
        record.get? "status" = some (.string "NEW") ∧
        record.get? "lines" = some (.array [.bool true]) ∧
        fields orders { orderHit with fields := orderHit.fields.reverse } = .ok record := by
  have hapart : orderHit.fields.Pairwise fun f g => ∀ v w,
      orders.mapping.Takes f v → orders.mapping.Takes g w → Path.Apart f.1 g.1 := by
    have hsingle : orderHit.fields.Pairwise fun f g => orders.mapping.manyRoot f.1 = none →
        orders.mapping.manyRoot g.1 = none → Path.Apart f.1 g.1 := by decide +kernel
    exact hsingle.imp fun h _ _ hf hg => h hf.single hg.single
  obtain ⟨record, hread, hid, htaken, hkept, horder⟩ := fields_places seeds_orderHit hapart
  refine ⟨seeds_orderHit, record, hread, hid, ?_, ?_, ?_, horder _ (List.reverse_perm _)⟩
  · refine htaken ("customer.name", .array [.string "Rob"]) (by simp [orderHit]) _ ⟨?_, ?_, .element _⟩
    · decide +kernel
    · decide +kernel
  · refine htaken ("status", .string "NEW") (by simp [orderHit]) _ ⟨?_, ?_, .plain _ (by simp)⟩
    · decide +kernel
    · decide +kernel
  · have hlines : ∀ f ∈ orderHit.fields, orders.mapping.manyRoot f.1 = none →
        Path.Apart f.1 "lines" := by decide +kernel
    rw [(hkept "lines" fun f hf _ htakes => hlines f hf htakes.single).1]
    rfl

end Materializer

end DocumentSearch
