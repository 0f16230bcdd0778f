import DocumentSearch.Document
import DocumentSearch.Proofs.Json.Members
import DocumentSearch.Proofs.Text.Path

/-!
# The values of a document as cells

Setting a value and getting values are those of independent cells, one at each path: what has been
set is there, values inside it lie below, a path that parts from it finds what it found before, and
settings at paths that part can be made in either order. All of it is shown for one place in a
document and what is written there in place of it; no kind of value that stands in the way makes
an exception.
-/

namespace DocumentSearch.Document

/-! ### One place -/

/-- What stands at a place once `value` has been put at the end of `segments` below it. -/
def overwrite (value : Json) (segments : List String) (old : Option Json) : Json :=
  if segments = [] then value else .object (setIn value segments (membersOf old))

theorem setIn_cons (value : Json) (s : String) (rest : List String) (source : Members Json) :
    setIn value (s :: rest) source =
      source.insert s (overwrite value rest (Members.find? source s)) := by
  cases rest <;> rfl

theorem overwrite_cons (value : Json) (s : String) (rest : List String) (old : Option Json) :
    overwrite value (s :: rest) old =
      .object ((membersOf old).insert s
        (overwrite value rest (Members.find? (membersOf old) s))) := by
  rw [← setIn_cons]
  rfl

theorem descend_cons (j : Json) (s : String) (rest : List String) :
    descend j (s :: rest) = (j.get? s).bind (descend · rest) := by
  rw [descend]
  cases j.get? s <;> rfl

/-- Nothing is found in what gives way. -/
theorem find?_membersOf (old : Option Json) (s : String) :
    Members.find? (membersOf old) s = old.bind (·.get? s) := by
  cases old with
  | none => rfl
  | some j => cases j <;> rfl

theorem descend_overwrite_cons (value : Json) (s : String) (rest : List String)
    (old : Option Json) (t : String) (ts : List String) :
    descend (overwrite value (s :: rest) old) (t :: ts) =
      if s = t then descend (overwrite value rest (old.bind (·.get? s))) ts
      else old.bind (descend · (t :: ts)) := by
  rw [overwrite_cons, descend_cons, Json.get?, Members.find?_insert]
  split
  · rw [Option.bind_some, find?_membersOf]
  · simp only [find?_membersOf, Option.bind_assoc, descend_cons]

/-- Below what has been put in stands what it has inside. -/
theorem descend_overwrite (v : Json) (segments more : List String) (old : Option Json) :
    descend (overwrite v segments old) (segments ++ more) = descend v more := by
  induction segments generalizing old with
  | nil => rfl
  | cons s rest ih =>
    rw [List.cons_append, descend_overwrite_cons, if_pos rfl]
    exact ih _

/-- Where the segments part, nothing changes. -/
theorem descend_overwrite_of_diverge {segments other : List String}
    (h : Path.Diverge segments other) (v : Json) (old : Option Json) :
    descend (overwrite v segments old) other = old.bind (descend · other) := by
  induction h generalizing old with
  | here hne ss ts => rw [descend_overwrite_cons, if_neg hne]
  | later s h ih =>
    rw [descend_overwrite_cons, if_pos rfl, ih]
    simp only [Option.bind_assoc, descend_cons]

theorem overwrite_overwrite (segments : List String) (v w : Json) (old : Option Json) :
    overwrite w segments (some (overwrite v segments old)) = overwrite w segments old := by
  induction segments generalizing old with
  | nil => rfl
  | cons s rest ih =>
    rw [overwrite_cons v, overwrite_cons w, overwrite_cons w, membersOf, Members.find?_insert,
      if_pos rfl, ih, Members.insert_insert]

theorem overwrite_comm {segments other : List String} (h : Path.Diverge segments other)
    (v w : Json) (old : Option Json) :
    overwrite w other (some (overwrite v segments old)) =
      overwrite v segments (some (overwrite w other old)) := by
  induction h generalizing old with
  -- Where they part, both write different members of one object, whatever stood there before.
  | here hne ss ts =>
    simp only [overwrite_cons, membersOf, Members.find?_insert, if_neg hne, if_neg (Ne.symm hne)]
    rw [Members.insert_comm _ hne]
  | later s h ih =>
    simp only [overwrite_cons, membersOf, Members.find?_insert, if_true, Members.insert_insert, ih]

/-! ### Paths in a document -/

theorem get?_eq_descend (d : Document) (path : String) :
    d.get? path = descend (.object d.source) (Path.segments path) := by
  obtain ⟨s, rest, hsegments⟩ := List.exists_cons_of_ne_nil (Path.segments_ne_nil path)
  rw [get?, hsegments, descend_cons, Json.get?, getIn]
  cases Members.find? d.source s <;> rfl

theorem object_set (d : Document) (path : String) (v : Json) :
    .object (d.set path v).source = overwrite v (Path.segments path) (some (.object d.source)) := by
  rw [overwrite, if_neg (Path.segments_ne_nil path)]
  rfl

theorem ext_object {d e : Document} (hid : d.id = e.id)
    (hsource : Json.object d.source = .object e.source) : d = e := by
  cases d
  cases e
  exact congrArg₂ Document.mk hid (Json.object.inj hsource)

section Set

variable (d : Document) (path : String) (v w : Json)

theorem get?_set_self : (d.set path v).get? path = some v := by
  have h := descend_overwrite v (Path.segments path) [] (some (.object d.source))
  rw [List.append_nil] at h
  rw [get?_eq_descend, object_set, h, descend]

theorem get?_set_child (rest : String) :
    (d.set path v).get? (Path.child path rest) = descend v (Path.segments rest) := by
  rw [get?_eq_descend, object_set, Path.segments_child, descend_overwrite]

theorem get?_set_of_apart {other : String} (h : Path.Apart path other) :
    (d.set path v).get? other = d.get? other := by
  rw [get?_eq_descend, object_set, descend_overwrite_of_diverge h.diverge, Option.bind_some,
    get?_eq_descend]

theorem set_set : (d.set path v).set path w = d.set path w := by
  apply ext_object
  · rfl
  rw [object_set, object_set, overwrite_overwrite, object_set]

theorem set_comm {other : String} (h : Path.Apart path other) :
    (d.set path v).set other w = (d.set other w).set path v := by
  apply ext_object
  · rfl
  rw [object_set, object_set, overwrite_comm h.diverge, object_set, object_set]

/-- The laws of independent cells. What has been set is found again, and below it what it has
inside. A path that parts from it finds what it found before, whatever had to give way. The later
of two settings stays, settings at paths that part can change places, and the id never changes. -/
theorem set_cells (other : String) :
    (d.set path v).get? path = some v ∧
      (∀ rest, (d.set path v).get? (Path.child path rest) = descend v (Path.segments rest)) ∧
      (Path.Apart path other → (d.set path v).get? other = d.get? other) ∧
      (d.set path v).set path w = d.set path w ∧
      (Path.Apart path other → (d.set path v).set other w = (d.set other w).set path v) ∧
      (d.set path v).id = d.id :=
  ⟨get?_set_self d path v, get?_set_child d path v, get?_set_of_apart d path v, set_set d path v w,
    set_comm d path v w, rfl⟩

end Set

/-! ### A number in the way -/

/-- A customer whose billing is a number. -/
def numbered : Document := ⟨some "c-1", [("billing", .number (.int 42))]⟩

/-- The address is set below the number, behind an empty segment. -/
theorem set_cells_belowNumber :
    Path.Apart "billing..address" "billing.city" ∧
      let address := Json.object [("city", .string "Napier")]
      let moved := numbered.set "billing..address" address
      moved.get? "billing..address" = some address ∧
        moved.get? "billing..address.city" = some (.string "Napier") ∧
        moved.get? "billing.city" = none ∧ moved.id = some "c-1" ∧
        moved.set "billing.city" .null =
          (numbered.set "billing.city" .null).set "billing..address" address := by
  have hapart : Path.Apart "billing..address" "billing.city" := by decide +kernel
  obtain ⟨hself, hchild, hother, -, hcomm, hid⟩ := set_cells numbered "billing..address"
    (.object [("city", .string "Napier")]) .null "billing.city"
  have hcity : Path.child "billing..address" "city" = "billing..address.city" := by decide +kernel
  have hnone : numbered.get? "billing.city" = none := by decide +kernel
  refine ⟨hapart, hself, ?_, (hother hapart).trans hnone, hid, hcomm hapart⟩
  rw [← hcity, hchild]
  rfl

end DocumentSearch.Document
