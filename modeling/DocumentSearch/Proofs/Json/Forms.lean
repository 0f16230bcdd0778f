import DocumentSearch.Json.Form
import DocumentSearch.Proofs.Json.Spelling
import Mathlib.Data.List.Nodup

/-!
# Reading typed forms back

What the rules for typed forms find in the trees that are written, and how deep those are nested.
-/

namespace DocumentSearch.Json

/-! ### Nesting -/

mutual

/-- How many brackets stand around the innermost part of a tree. -/
def Tree.nesting : Tree → Nat
  | .atom _ => 0
  | .emptyArray _ => 1
  | .array items => items.nesting + 1
  | .emptyObject _ => 1
  | .object entries => entries.nesting + 1

def Items.nesting : Items → Nat
  | .last _ v _ => v.nesting
  | .cons _ v _ rest => max v.nesting rest.nesting

def Entries.nesting : Entries → Nat
  | .last _ _ _ _ v _ => v.nesting
  | .cons _ _ _ _ v _ rest => max v.nesting rest.nesting

end

theorem Items.nesting_ofList_le (style : Style) (depth : Nat) (first : Tree) (items : List Tree)
    (d : Nat) :
    (ofList style depth first items).nesting ≤ d ↔ ∀ t ∈ first :: items, t.nesting ≤ d := by
  induction items generalizing first with
  | nil => rw [ofList, nesting, List.forall_mem_singleton]
  | cons t items ih =>
    rw [ofList, nesting, Nat.max_le, ih t]
    simp only [List.forall_mem_cons]

theorem Entries.nesting_ofList_le (style : Style) (depth : Nat) (first : String × Tree)
    (entries : List (String × Tree)) (d : Nat) :
    (ofList style depth first entries).nesting ≤ d ↔
      ∀ e ∈ first :: entries, e.2.nesting ≤ d := by
  induction entries generalizing first with
  | nil => rw [ofList, nesting, List.forall_mem_singleton]
  | cons e entries ih =>
    rw [ofList, nesting, Nat.max_le, ih e]
    simp only [List.forall_mem_cons]

namespace Tree

theorem nesting_ofItems_le (style : Style) (depth : Nat) (items : List Tree) (d : Nat) :
    (ofItems style depth items).nesting ≤ d + 1 ↔ ∀ t ∈ items, t.nesting ≤ d := by
  match items with
  | [] => simp [ofItems, nesting]
  | first :: rest =>
    rw [ofItems, nesting, Nat.add_le_add_iff_right, Items.nesting_ofList_le]

theorem nesting_ofEntries_le (style : Style) (depth : Nat) (entries : List (String × Tree))
    (d : Nat) :
    (ofEntries style depth entries).nesting ≤ d + 1 ↔ ∀ e ∈ entries, e.2.nesting ≤ d := by
  match entries with
  | [] => simp [ofEntries, nesting]
  | first :: rest =>
    rw [ofEntries, nesting, Nat.add_le_add_iff_right, Entries.nesting_ofList_le]

theorem nesting_ofItems_pos (style : Style) (depth : Nat) (items : List Tree) :
    0 < (ofItems style depth items).nesting := by
  cases items <;> simp [ofItems, nesting]

theorem nesting_ofEntries_pos (style : Style) (depth : Nat) (entries : List (String × Tree)) :
    0 < (ofEntries style depth entries).nesting := by
  cases entries <;> simp [ofEntries, nesting]

/-- A list that fits some depth fits it one level in. -/
theorem exists_depth_of_listed {items : List Tree} {d : Nat} (h : (listed items).nesting ≤ d) :
    ∃ inner, d = inner + 1 ∧ ∀ t ∈ items, t.nesting ≤ inner := by
  have hpos := nesting_ofItems_pos .compact 0 items
  obtain ⟨inner, rfl⟩ : ∃ inner, d = inner + 1 := ⟨d - 1, by rw [listed] at h; omega⟩
  exact ⟨inner, rfl, (nesting_ofItems_le .compact 0 items inner).mp h⟩

theorem exists_depth_of_record {fields : List (String × Tree)} {d : Nat}
    (h : (record fields).nesting ≤ d) :
    ∃ inner, d = inner + 1 ∧ ∀ e ∈ fields, e.2.nesting ≤ inner := by
  have hpos := nesting_ofEntries_pos .compact 0 fields
  obtain ⟨inner, rfl⟩ : ∃ inner, d = inner + 1 := ⟨d - 1, by rw [record] at h; omega⟩
  exact ⟨inner, rfl, (nesting_ofEntries_le .compact 0 fields inner).mp h⟩

theorem exists_depth_of_variant {name : String} {payload : Tree} {d : Nat}
    (h : (record [(name, payload)]).nesting ≤ d) :
    ∃ inner, d = inner + 1 ∧ payload.nesting ≤ inner := by
  obtain ⟨inner, hd, hfields⟩ := exists_depth_of_record h
  exact ⟨inner, hd, hfields (name, payload) List.mem_cons_self⟩

end Tree

/-! ### Elements and members -/

theorem mapM_map_eq_some {α β γ : Type} {read : β → Option γ} {write : α → β} {value : α → γ}
    {items : List α} (h : ∀ a ∈ items, read (write a) = some (value a)) :
    (items.map write).mapM read = some (items.map value) := by
  induction items with
  | nil => rfl
  | cons a items ih =>
    rw [List.forall_mem_cons] at h
    rw [List.map_cons, List.mapM_cons, h.1, ih h.2]
    rfl

theorem Items.toList_ofList (style : Style) (depth : Nat) (first : Tree) (items : List Tree) :
    (ofList style depth first items).toList = first :: items := by
  induction items generalizing first with
  | nil => rfl
  | cons t items ih => rw [ofList, toList, ih]

theorem Entries.toList_ofList (style : Style) (depth : Nat) (first : String × Tree)
    (entries : List (String × Tree)) :
    (ofList style depth first entries).toList =
      (first :: entries).map fun e => (Quoted.ofString e.1, e.2) := by
  induction entries generalizing first with
  | nil => rfl
  | cons e entries ih =>
    rw [ofList, toList, ih]
    rfl

namespace Tree

theorem items?_ofItems (style : Style) (depth : Nat) (items : List Tree) :
    (ofItems style depth items).items? = some items := by
  match items with
  | [] => rfl
  | first :: rest => rw [ofItems, items?, Items.toList_ofList]

theorem items?_ofEntries (style : Style) (depth : Nat) (entries : List (String × Tree)) :
    (ofEntries style depth entries).items? = none := by
  cases entries <;> rfl

theorem entries?_ofEntries (style : Style) (depth : Nat) (entries : List (String × Tree)) :
    (ofEntries style depth entries).entries? =
      some (entries.map fun e => (Quoted.ofString e.1, e.2)) := by
  match entries with
  | [] => rfl
  | first :: rest => rw [ofEntries, entries?, Entries.toList_ofList]

theorem named?_ofEntries (style : Style) (depth : Nat) (entries : List (String × Tree)) :
    (ofEntries style depth entries).named? = some entries := by
  have hread := @mapM_map_eq_some _ _ _
    (fun (e : Quoted × Tree) => (Quoted.value? e.1).map fun k => (k, e.2))
    (fun (e : String × Tree) => (Quoted.ofString e.1, e.2)) id entries
    (by intro e _; rw [Quoted.value?_ofString]; rfl)
  rw [named?, entries?_ofEntries, Option.bind_some]
  exact hread.trans (by rw [List.map_id])

@[simp] theorem string?_quoted (s : String) : (quoted s).string? = some s :=
  Quoted.value?_ofString s

@[simp] theorem variant?_quoted (s : String) : (quoted s).variant? = some (s, none) := by
  rw [quoted, variant?, Quoted.value?_ofString]
  rfl

@[simp] theorem variant?_record (name : String) (payload : Tree) :
    (record [(name, payload)]).variant? = some (name, some payload) := by
  have hnamed := named?_ofEntries .compact 0 [(name, payload)]
  rw [ofEntries] at hnamed
  simp only [record, ofEntries, variant?, hnamed]

@[simp] theorem inside?_quoted (depth : Nat) (s : String) :
    (quoted s).inside? depth = some depth := rfl

@[simp] theorem inside?_record (depth : Nat) (fields : List (String × Tree)) :
    (record fields).inside? (depth + 1) = some depth := by
  cases fields <;> rfl

@[simp] theorem inside?_listed (depth : Nat) (items : List Tree) :
    (listed items).inside? (depth + 1) = some depth := by
  cases items <;> rfl

@[simp] theorem int64?_ofInt (i : Int64) : (atom (.number (.ofInt i.toInt))).int64? = some i := by
  have hlow : -0x8000000000000000 ≤ i.toInt := i.le_toInt
  have hhigh : i.toInt < 0x8000000000000000 := i.toInt_lt
  have hvalue := Numeral.value?_ofInt hlow (by omega)
  simp only [int64?, int?, number?, hvalue, hlow, hhigh, and_self, if_true, Int64.ofInt_toInt]

@[simp] theorem choice?_quoted {α : Type} (ofName? : String → Option α) (depth : Nat)
    (name : String) : choice? ofName? depth (quoted name) = ofName? name := by
  simp [choice?, isUnit]

theorem list?_listed {α : Type} (read : Tree → Option α) (items : List Tree) :
    (listed items).list? read = items.mapM read := by
  rw [list?, listed, items?_ofItems, Option.bind_some]

/-! ### Objects and arrays told apart -/

section Brackets

variable {t : Tree}

theorem items?_of_named? {entries : List (String × Tree)} (h : t.named? = some entries) :
    t.items? = none := by
  cases t with
  | emptyObject | object => rfl
  | _ => cases h

theorem inside?_of_named? {entries : List (String × Tree)} (h : t.named? = some entries)
    (depth : Nat) : t.inside? depth = if depth = 0 then none else some (depth - 1) := by
  cases t with
  | emptyObject | object => rfl
  | _ => cases h

theorem inside?_of_items? {items : List Tree} (h : t.items? = some items) (depth : Nat) :
    t.inside? depth = if depth = 0 then none else some (depth - 1) := by
  cases t with
  | emptyArray | array => rfl
  | _ => cases h

theorem fields?_of_named? {entries : List (String × Tree)} (h : t.named? = some entries)
    (names : List String) :
    t.fields? names =
      if ∀ name ∈ names, (entries.filter fun e => e.1 = name).length ≤ 1 then
        some (names.map fun name => entries.lookup name)
      else none := by
  rw [fields?, items?_of_named? h, h]
  simp only [List.all_eq_true, decide_eq_true_eq]

theorem fields?_of_items? {items : List Tree} (h : t.items? = some items) (names : List String) :
    t.fields? names =
      if items.length ≤ names.length then
        some (items.map some ++ List.replicate (names.length - items.length) none)
      else none := by
  rw [fields?, h]

end Brackets

theorem lookup_eq_some {fields : List (String × Tree)} (h : (fields.map Prod.fst).Nodup)
    {e : String × Tree} (he : e ∈ fields) : fields.lookup e.1 = some e.2 := by
  induction fields with
  | nil => cases he
  | cons f fields ih =>
    rw [List.map_cons, List.nodup_cons] at h
    obtain rfl | he := List.mem_cons.mp he
    · rw [List.lookup_cons, beq_self_eq_true]
    · have hne : (e.1 == f.1) = false := by
        rw [beq_eq_false_iff_ne]
        intro heq
        exact h.1 (heq ▸ List.mem_map_of_mem he)
      rw [List.lookup_cons, hne]
      exact ih h.2 he

theorem length_filter_le_one {entries : List (String × Tree)} (h : (entries.map Prod.fst).Nodup)
    (name : String) : (entries.filter fun e => e.1 = name).length ≤ 1 := by
  have hcount : (entries.map Prod.fst).count name ≤ 1 := List.nodup_iff_count_le_one.mp h name
  rwa [List.count, List.countP_map, List.countP_eq_length_filter] at hcount

/-- The members of an object are its fields, whatever they are, as long as each name stands once. -/
theorem fields?_of_nodup {t : Tree} {entries : List (String × Tree)} (h : t.named? = some entries)
    (hnodup : (entries.map Prod.fst).Nodup) (names : List String) :
    t.fields? names = some (names.map fun name => entries.lookup name) := by
  rw [fields?_of_named? h, if_pos fun name _ => length_filter_le_one hnodup name]

/-- The fields of a record are found by their names, whatever they are. -/
theorem fields?_record (fields : List (String × Tree)) {names : List String}
    (hnames : fields.map Prod.fst = names) (h : names.Nodup) :
    (record fields).fields? names = some (fields.map fun e => some e.2) := by
  subst hnames
  have hfound : (fields.map Prod.fst).map (fun name => fields.lookup name) =
      fields.map fun e => some e.2 := by
    rw [List.map_map]
    exact List.map_congr_left fun e he => lookup_eq_some h he
  rw [record, fields?_of_nodup (named?_ofEntries .compact 0 fields) h, hfound]

end Tree

end DocumentSearch.Json
