import DocumentSearch.Filter.Format
import DocumentSearch.Proofs.Json.Forms
import DocumentSearch.Proofs.Json.Written

/-!
# Filters and their text

A filter is read back from its text. Two limits come from how values are written and read: a double
is not kept exactly, and a text is read only as deep as its nesting may go. Each level of a filter
gives up as many levels of that depth as its text has brackets, so the filters that fit are just
those whose text does.
-/

namespace DocumentSearch

open Json (Tree)

/-! ### Scalars -/

namespace Scalar

def isNumeric : Scalar → Bool
  | .numeric _ => true
  | _ => false

theorem allChars_toTree (v : Scalar) : v.toTree.AllChars := by
  cases v with
  | null => exact Tree.allChars_quoted "Null"
  | boolean b => exact Tree.allChars_record (by simp [Tree.allChars_bool])
  | integer i => exact Tree.allChars_record (by simp [Tree.allChars_number])
  | numeric x =>
    refine Tree.allChars_record ?_
    rw [List.forall_mem_singleton, Json.Number.atom]
    split
    · exact Tree.allChars_number _
    · exact Tree.allChars_null
  | text s => exact Tree.allChars_record (by simp [Tree.allChars_quoted])
  | timestamp t => exact Tree.allChars_record (by simp [Tree.allChars_number])

theorem ofTree?_toTree {v : Scalar} {depth : Nat} (hexact : v.isNumeric = false)
    (h : v.toTree.nesting ≤ depth) : ofTree? depth v.toTree = some v := by
  cases v with
  | null => simp [toTree, ofTree?, Tree.isUnit]
  | boolean b =>
    obtain ⟨depth, rfl, -⟩ := Tree.exists_depth_of_record h
    simp [toTree, ofTree?, Tree.bool?]
  | integer i =>
    obtain ⟨depth, rfl, -⟩ := Tree.exists_depth_of_record h
    simp [toTree, ofTree?]
  | numeric x => cases hexact
  | text s =>
    obtain ⟨depth, rfl, -⟩ := Tree.exists_depth_of_record h
    simp [toTree, ofTree?]
  | timestamp t =>
    obtain ⟨depth, rfl, -⟩ := Tree.exists_depth_of_record h
    simp [toTree, ofTree?]

end Scalar

/-! ### Bounds -/

theorem RangeOp.ofName?_name (op : RangeOp) : ofName? op.name = some op := by
  cases op <;> rfl

theorem LikeType.ofName?_name (type : LikeType) : ofName? type.name = some type := by
  cases type <;> rfl

namespace RangeBound

def scalars : RangeBound → List Scalar
  | .single _ value => [value]
  | .between _ low _ high => [low, high]

theorem allChars_toTree (bound : RangeBound) : bound.toTree.AllChars := by
  cases bound with
  | single op value =>
    have hbody : (Tree.record [("op", .quoted op.name), ("value", value.toTree)]).AllChars :=
      Tree.allChars_record (by simp [Tree.allChars_quoted, Scalar.allChars_toTree])
    exact Tree.allChars_record (List.forall_mem_singleton.mpr hbody)
  | between lowOp low highOp high =>
    have hbody : (Tree.record [("low_op", .quoted lowOp.name), ("low", low.toTree),
        ("high_op", .quoted highOp.name), ("high", high.toTree)]).AllChars :=
      Tree.allChars_record (by simp [Tree.allChars_quoted, Scalar.allChars_toTree])
    exact Tree.allChars_record (List.forall_mem_singleton.mpr hbody)

theorem ofTree?_toTree {bound : RangeBound} {depth : Nat}
    (hexact : ∀ v ∈ bound.scalars, v.isNumeric = false) (h : bound.toTree.nesting ≤ depth) :
    ofTree? depth bound.toTree = some bound := by
  cases bound with
  | single op value =>
    obtain ⟨depth, rfl, hbody⟩ := Tree.exists_depth_of_variant h
    obtain ⟨depth, rfl, hfields⟩ := Tree.exists_depth_of_record hbody
    have hread : (Tree.record [("op", .quoted op.name), ("value", value.toTree)]).fields?
        ["op", "value"] = some [some (.quoted op.name), some value.toTree] :=
      Tree.fields?_record _ rfl (by decide)
    have hvalue := Scalar.ofTree?_toTree (hexact value (by simp [scalars]))
      (hfields ("value", value.toTree) (by simp))
    simp [toTree, ofTree?, hread, hvalue, RangeOp.ofName?_name]
  | between lowOp low highOp high =>
    obtain ⟨depth, rfl, hbody⟩ := Tree.exists_depth_of_variant h
    obtain ⟨depth, rfl, hfields⟩ := Tree.exists_depth_of_record hbody
    have hread : (Tree.record [("low_op", .quoted lowOp.name), ("low", low.toTree),
        ("high_op", .quoted highOp.name), ("high", high.toTree)]).fields?
        ["low_op", "low", "high_op", "high"] =
        some [some (.quoted lowOp.name), some low.toTree, some (.quoted highOp.name),
          some high.toTree] :=
      Tree.fields?_record _ rfl (by decide)
    have hlow := Scalar.ofTree?_toTree (hexact low (by simp [scalars]))
      (hfields ("low", low.toTree) (by simp))
    have hhigh := Scalar.ofTree?_toTree (hexact high (by simp [scalars]))
      (hfields ("high", high.toTree) (by simp))
    simp [toTree, ofTree?, hread, hlow, hhigh, RangeOp.ofName?_name]

end RangeBound

namespace Filter

/-! ### Conditions -/

/-- A list that is written element by element is read back one level in. -/
theorem listOf?_listed {α : Type} {read : Nat → Tree → Option α} {write : α → Tree}
    {items : List α} {depth : Nat} (h : (Tree.listed (items.map write)).nesting ≤ depth)
    (hread : ∀ inner, ∀ a ∈ items, (write a).nesting ≤ inner → read inner (write a) = some a) :
    listOf? read depth (.listed (items.map write)) = some items := by
  obtain ⟨inner, rfl, hitems⟩ := Tree.exists_depth_of_listed h
  have hlist := @Json.mapM_map_eq_some _ _ _ (read inner) write id items fun a ha =>
    hread inner a ha (hitems (write a) (List.mem_map_of_mem ha))
  rw [List.map_id] at hlist
  simp only [listOf?, Tree.inside?_listed, Tree.list?_listed, hlist]

theorem listOf?_scalars {values : List Scalar} {depth : Nat}
    (hexact : ∀ v ∈ values, v.isNumeric = false)
    (h : (Tree.listed (values.map Scalar.toTree)).nesting ≤ depth) :
    listOf? Scalar.ofTree? depth (.listed (values.map Scalar.toTree)) = some values :=
  listOf?_listed h fun _ v hv hfits => Scalar.ofTree?_toTree (hexact v hv) hfits

theorem pairOf?_pairTree {p : String × Scalar} {depth : Nat} (hexact : p.2.isNumeric = false)
    (h : (pairTree p).nesting ≤ depth) : pairOf? depth (pairTree p) = some p := by
  obtain ⟨depth, rfl, hitems⟩ := Tree.exists_depth_of_listed h
  have hvalue := Scalar.ofTree?_toTree hexact (hitems p.2.toTree (by simp))
  have hread : (Tree.listed [.quoted p.1, p.2.toTree]).items? =
      some [.quoted p.1, p.2.toTree] := Tree.items?_ofItems .compact 0 _
  simp [pairTree, pairOf?, hread, hvalue]

theorem allChars_scalars (values : List Scalar) :
    (Tree.listed (values.map Scalar.toTree)).AllChars := by
  refine Tree.allChars_listed ?_
  rw [List.forall_mem_map]
  exact fun v _ => v.allChars_toTree

theorem allChars_pairTree (p : String × Scalar) : (pairTree p).AllChars :=
  Tree.allChars_listed (by simp [Tree.allChars_quoted, Scalar.allChars_toTree])

@[simp] theorem bool?_boolTree (b : Bool) : (boolTree b).bool? = some b := rfl

/-- A path and a value by name, as two kinds of condition hold them. -/
theorem exists_fields_of_comparison {path : String} {value : Scalar} {depth : Nat}
    (hexact : value.isNumeric = false)
    (h : (Tree.record [("path", .quoted path), ("value", value.toTree)]).nesting ≤ depth) :
    ∃ inner, depth = inner + 1 ∧ Scalar.ofTree? inner value.toTree = some value ∧
      (Tree.record [("path", .quoted path), ("value", value.toTree)]).fields? ["path", "value"] =
        some [some (.quoted path), some value.toTree] := by
  obtain ⟨inner, hdepth, hfields⟩ := Tree.exists_depth_of_record h
  have hvalue := Scalar.ofTree?_toTree hexact (hfields ("value", value.toTree) (by simp))
  exact ⟨inner, hdepth, hvalue, Tree.fields?_record _ rfl (by decide)⟩

theorem conditionOf?_equals {path : String} {value : Scalar} {depth : Nat}
    (hexact : value.isNumeric = false)
    (h : (Tree.record [("path", .quoted path), ("value", value.toTree)]).nesting ≤ depth) :
    conditionOf? depth "Equals" (.record [("path", .quoted path), ("value", value.toTree)]) =
      some (.equals path value) := by
  obtain ⟨inner, rfl, hvalue, hfields⟩ := exists_fields_of_comparison hexact h
  unfold conditionOf?
  simp [hfields, hvalue]

theorem conditionOf?_notEquals {path : String} {value : Scalar} {depth : Nat}
    (hexact : value.isNumeric = false)
    (h : (Tree.record [("path", .quoted path), ("value", value.toTree)]).nesting ≤ depth) :
    conditionOf? depth "NotEquals" (.record [("path", .quoted path), ("value", value.toTree)]) =
      some (.notEquals path value) := by
  obtain ⟨inner, rfl, hvalue, hfields⟩ := exists_fields_of_comparison hexact h
  unfold conditionOf?
  simp [hfields, hvalue]

theorem conditionOf?_allEquals {pairs : List (String × Scalar)} {depth : Nat}
    (hexact : ∀ v ∈ pairs.map Prod.snd, v.isNumeric = false)
    (h : (Tree.listed (pairs.map pairTree)).nesting ≤ depth) :
    conditionOf? depth "AllEquals" (.listed (pairs.map pairTree)) = some (.allEquals pairs) := by
  have hpairs : listOf? pairOf? depth (.listed (pairs.map pairTree)) = some pairs :=
    listOf?_listed h fun _ p hp hfits =>
      pairOf?_pairTree (hexact p.2 (List.mem_map_of_mem hp)) hfits
  unfold conditionOf?
  simp [hpairs]

theorem conditionOf?_range {path : String} {bound : RangeBound} {depth : Nat}
    (hexact : ∀ v ∈ bound.scalars, v.isNumeric = false)
    (h : (Tree.record [("path", .quoted path), ("range", bound.toTree)]).nesting ≤ depth) :
    conditionOf? depth "Range" (.record [("path", .quoted path), ("range", bound.toTree)]) =
      some (.range path bound) := by
  obtain ⟨inner, rfl, hfields⟩ := Tree.exists_depth_of_record h
  have hbound := RangeBound.ofTree?_toTree hexact (hfields ("range", bound.toTree) (by simp))
  have hread : (Tree.record [("path", .quoted path), ("range", bound.toTree)]).fields?
      ["path", "range"] = some [some (.quoted path), some bound.toTree] :=
    Tree.fields?_record _ rfl (by decide)
  unfold conditionOf?
  simp [hread, hbound]

theorem conditionOf?_oneOf {path : String} {values : List Scalar} {negated : Bool} {depth : Nat}
    (hexact : ∀ v ∈ values, v.isNumeric = false)
    (h : (Tree.record [("path", .quoted path), ("values", .listed (values.map Scalar.toTree)),
      ("negated", boolTree negated)]).nesting ≤ depth) :
    conditionOf? depth "In" (.record [("path", .quoted path),
      ("values", .listed (values.map Scalar.toTree)), ("negated", boolTree negated)]) =
      some (.oneOf path values negated) := by
  obtain ⟨inner, rfl, hfields⟩ := Tree.exists_depth_of_record h
  have hvalues := listOf?_scalars hexact
    (hfields ("values", .listed (values.map Scalar.toTree)) (by simp))
  have hread : (Tree.record [("path", .quoted path),
      ("values", .listed (values.map Scalar.toTree)), ("negated", boolTree negated)]).fields?
      ["path", "values", "negated"] = some [some (.quoted path),
        some (.listed (values.map Scalar.toTree)), some (boolTree negated)] :=
    Tree.fields?_record _ rfl (by decide)
  unfold conditionOf?
  simp [hread, hvalues]

theorem conditionOf?_ids {values : List Scalar} {depth : Nat}
    (hexact : ∀ v ∈ values, v.isNumeric = false)
    (h : (Tree.listed (values.map Scalar.toTree)).nesting ≤ depth) :
    conditionOf? depth "Ids" (.listed (values.map Scalar.toTree)) = some (.ids values) := by
  have hvalues := listOf?_scalars hexact h
  unfold conditionOf?
  simp [hvalues]

theorem conditionOf?_like (path text : String) (type : LikeType) (caseInsensitive : Bool)
    (depth : Nat) :
    conditionOf? (depth + 1) "Like" (.record [("path", .quoted path), ("value", .quoted text),
      ("like_type", .quoted type.name), ("case_insensitive", boolTree caseInsensitive)]) =
      some (.like path text type caseInsensitive) := by
  have hread : (Tree.record [("path", .quoted path), ("value", .quoted text),
      ("like_type", .quoted type.name), ("case_insensitive", boolTree caseInsensitive)]).fields?
      ["path", "value", "like_type", "case_insensitive"] = some [some (.quoted path),
        some (.quoted text), some (.quoted type.name), some (boolTree caseInsensitive)] :=
    Tree.fields?_record _ rfl (by decide)
  unfold conditionOf?
  simp [hread, LikeType.ofName?_name]

theorem conditionOf?_exists (path : String) (mustExist : Bool) (depth : Nat) :
    conditionOf? (depth + 1) "Exists" (.record [("path", .quoted path),
      ("must_exist", boolTree mustExist)]) = some (.exists path mustExist) := by
  have hread : (Tree.record [("path", .quoted path), ("must_exist", boolTree mustExist)]).fields?
      ["path", "must_exist"] = some [some (.quoted path), some (boolTree mustExist)] :=
    Tree.fields?_record _ rfl (by decide)
  unfold conditionOf?
  simp [hread]

/-! ### Filters -/

mutual

/-- The values that a filter compares with. -/
def scalars : Filter → List Scalar
  | .and children => scalarsOf children
  | .or children => scalarsOf children
  | .not child => child.scalars
  | .equals _ value => [value]
  | .notEquals _ value => [value]
  | .allEquals pairs => pairs.map Prod.snd
  | .range _ bound => bound.scalars
  | .oneOf _ values _ => values
  | .ids values => values
  | .like .. => []
  | .exists .. => []

def scalarsOf : List Filter → List Scalar
  | [] => []
  | f :: rest => f.scalars ++ scalarsOf rest

end

mutual

theorem allChars_toTree (f : Filter) : f.toTree.AllChars := by
  have hvariant : ∀ {name : String} {payload : Tree}, payload.AllChars →
      (Tree.record [(name, payload)]).AllChars := by
    intro name payload h
    exact Tree.allChars_record (List.forall_mem_singleton.mpr h)
  cases f with
  | and children => exact hvariant (Tree.allChars_listed (allChars_treesOf children))
  | or children => exact hvariant (Tree.allChars_listed (allChars_treesOf children))
  | not child => exact hvariant (allChars_toTree child)
  | equals path value | notEquals path value =>
    refine hvariant (Tree.allChars_record ?_)
    simp [Tree.allChars_quoted, Scalar.allChars_toTree]
  | allEquals pairs =>
    refine hvariant (Tree.allChars_listed ?_)
    simp only [List.forall_mem_map, allChars_pairTree, implies_true]
  | range path bound =>
    refine hvariant (Tree.allChars_record ?_)
    simp [Tree.allChars_quoted, RangeBound.allChars_toTree]
  | oneOf path values negated =>
    refine hvariant (Tree.allChars_record ?_)
    simp [Tree.allChars_quoted, allChars_scalars, boolTree, Tree.allChars_bool]
  | ids values => exact hvariant (allChars_scalars values)
  | like path text type caseInsensitive =>
    refine hvariant (Tree.allChars_record ?_)
    simp [Tree.allChars_quoted, boolTree, Tree.allChars_bool]
  | «exists» path mustExist =>
    refine hvariant (Tree.allChars_record ?_)
    simp [Tree.allChars_quoted, boolTree, Tree.allChars_bool]

theorem allChars_treesOf (fs : List Filter) : ∀ t ∈ treesOf fs, t.AllChars := by
  match fs with
  | [] => simp [treesOf]
  | f :: rest =>
    rw [treesOf, List.forall_mem_cons]
    exact ⟨allChars_toTree f, allChars_treesOf rest⟩

end

/-- What is not named for a junction or a negation is a condition. -/
theorem ofTree?_condition {name : String} (hname : name ∉ ["And", "Or", "Not"]) (depth : Nat)
    (body : Tree) : ofTree? (depth + 1) (.record [(name, body)]) = conditionOf? depth name body := by
  have hnames : name ≠ "And" ∧ name ≠ "Or" ∧ name ≠ "Not" := by simpa using hname
  rw [ofTree?.eq_def, Tree.variant?_record]
  split
  · next heq =>
    cases heq
    exact absurd rfl hnames.1
  · next heq =>
    cases heq
    exact absurd rfl hnames.2.1
  · next heq =>
    cases heq
    exact absurd rfl hnames.2.2
  · next _ _ _ hdepth heq =>
    cases hdepth
    cases heq
    rfl
  · next hother => exact absurd rfl (hother depth name body rfl)

mutual

theorem ofTree?_toTree (f : Filter) {depth : Nat} (hexact : ∀ v ∈ f.scalars, v.isNumeric = false)
    (h : f.toTree.nesting ≤ depth) : ofTree? depth f.toTree = some f := by
  cases f with
  | and children =>
    obtain ⟨depth, rfl, hbody⟩ := Tree.exists_depth_of_variant h
    obtain ⟨depth, rfl, hchildren⟩ := Tree.exists_depth_of_listed hbody
    have hread := mapM_ofTree?_treesOf children hexact hchildren
    simp [toTree, ofTree?, Tree.list?_listed, hread]
  | or children =>
    obtain ⟨depth, rfl, hbody⟩ := Tree.exists_depth_of_variant h
    obtain ⟨depth, rfl, hchildren⟩ := Tree.exists_depth_of_listed hbody
    have hread := mapM_ofTree?_treesOf children hexact hchildren
    simp [toTree, ofTree?, Tree.list?_listed, hread]
  | not child =>
    obtain ⟨depth, rfl, hbody⟩ := Tree.exists_depth_of_variant h
    have hread := ofTree?_toTree child hexact hbody
    simp [toTree, ofTree?, hread]
  | equals path value =>
    obtain ⟨depth, rfl, hbody⟩ := Tree.exists_depth_of_variant h
    rw [toTree, ofTree?_condition (by decide)]
    exact conditionOf?_equals (hexact value List.mem_cons_self) hbody
  | notEquals path value =>
    obtain ⟨depth, rfl, hbody⟩ := Tree.exists_depth_of_variant h
    rw [toTree, ofTree?_condition (by decide)]
    exact conditionOf?_notEquals (hexact value List.mem_cons_self) hbody
  | allEquals pairs =>
    obtain ⟨depth, rfl, hbody⟩ := Tree.exists_depth_of_variant h
    rw [toTree, ofTree?_condition (by decide)]
    exact conditionOf?_allEquals hexact hbody
  | range path bound =>
    obtain ⟨depth, rfl, hbody⟩ := Tree.exists_depth_of_variant h
    rw [toTree, ofTree?_condition (by decide)]
    exact conditionOf?_range hexact hbody
  | oneOf path values negated =>
    obtain ⟨depth, rfl, hbody⟩ := Tree.exists_depth_of_variant h
    rw [toTree, ofTree?_condition (by decide)]
    exact conditionOf?_oneOf hexact hbody
  | ids values =>
    obtain ⟨depth, rfl, hbody⟩ := Tree.exists_depth_of_variant h
    rw [toTree, ofTree?_condition (by decide)]
    exact conditionOf?_ids hexact hbody
  | like path text type caseInsensitive =>
    obtain ⟨depth, rfl, hbody⟩ := Tree.exists_depth_of_variant h
    obtain ⟨depth, rfl, -⟩ := Tree.exists_depth_of_record hbody
    rw [toTree, ofTree?_condition (by decide)]
    exact conditionOf?_like path text type caseInsensitive depth
  | «exists» path mustExist =>
    obtain ⟨depth, rfl, hbody⟩ := Tree.exists_depth_of_variant h
    obtain ⟨depth, rfl, -⟩ := Tree.exists_depth_of_record hbody
    rw [toTree, ofTree?_condition (by decide)]
    exact conditionOf?_exists path mustExist depth

theorem mapM_ofTree?_treesOf (fs : List Filter) {depth : Nat}
    (hexact : ∀ v ∈ scalarsOf fs, v.isNumeric = false)
    (h : ∀ t ∈ treesOf fs, t.nesting ≤ depth) : (treesOf fs).mapM (ofTree? depth) = some fs := by
  match fs with
  | [] => rfl
  | f :: rest =>
    rw [scalarsOf, List.forall_mem_append] at hexact
    rw [treesOf, List.forall_mem_cons] at h
    rw [treesOf, List.mapM_cons, ofTree?_toTree f hexact.1 h.1,
      mapM_ofTree?_treesOf rest hexact.2 h.2]
    rfl

end

/-- A filter that its text keeps. -/
structure Storable (f : Filter) : Prop where
  exact : ∀ v ∈ f.scalars, v.isNumeric = false
  shallow : f.toTree.nesting ≤ Json.maxDepth

theorem Storable.read_back {f : Filter} (h : f.Storable) :
    read? (Utf8.symbols f.write) = some f := by
  rw [read?, write, Tree.parse?_symbols_write f.allChars_toTree, Option.bind_some]
  exact ofTree?_toTree f h.exact h.shallow

/-- A storable filter is read back from its text, and no other one has that text. -/
theorem read?_write {f : Filter} (h : f.Storable) :
    read? (Utf8.symbols f.write) = some f ∧
      ∀ g : Filter, g.Storable → g.write = f.write → g = f := by
  refine ⟨h.read_back, fun g hg hwrite => ?_⟩
  have hread := hg.read_back
  rw [hwrite, h.read_back] at hread
  exact (Option.some.inj hread).symm

/-- A filter with every kind of condition, and with texts and numbers at their limits. -/
def mixed : Filter :=
  .and [
    .or [],
    .not (.not (.equals "a.\"b\\\n\x01é😀" (.integer (-9223372036854775808)))),
    .notEquals "" .null,
    .allEquals [("flag", .boolean true), ("name", .text "\x08\x0C\r\t/\x7F")],
    .range "at" (.single .lt (.timestamp 9223372036854775807)),
    .range "n" (.between .ge (.integer 0) .le (.integer 10)),
    .oneOf "tag" [.text "", .null] true,
    .ids [.text "1", .integer 1],
    .like "title" "100%_" .startsWith true,
    .exists "title" false]

theorem read?_write_mixed :
    mixed.Storable ∧ read? (Utf8.symbols mixed.write) = some mixed ∧
      ∀ g : Filter, g.Storable → g.write = mixed.write → g = mixed := by
  have h : mixed.Storable := ⟨by decide +kernel, by decide +kernel⟩
  exact ⟨h, read?_write h⟩

end Filter

end DocumentSearch
