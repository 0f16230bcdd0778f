import DocumentSearch.Proofs.Json.Forms
import DocumentSearch.Proofs.Json.Members
import DocumentSearch.Proofs.Json.Written
import DocumentSearch.Proofs.Text.Utf8

/-!
# Reading written values back

What a value is written as has nothing but characters in it, and is read back as the value, where
reading keeps it: whole numbers of 64 bits are kept, and so are objects, as long as none begins with
the name that embeds a text.
-/

namespace DocumentSearch.Json

open Utf8 (Symbol)

/-! ### What a value is written as -/

theorem treesOf_eq_map (style : Style) (depth : Nat) (items : List Json) :
    treesOf style depth items = items.map (toTree style depth) := by
  induction items with
  | nil => rfl
  | cons j rest ih => rw [treesOf, ih, List.map_cons]

theorem entriesOf_eq_map (style : Style) (depth : Nat) (members : List (String × Json)) :
    entriesOf style depth members = members.map fun e => (e.1, toTree style depth e.2) := by
  induction members with
  | nil => rfl
  | cons e rest ih => rw [entriesOf, ih, List.map_cons]

mutual

theorem allChars_toTree (style : Style) (depth : Nat) (j : Json) :
    (j.toTree style depth).AllChars := by
  cases j with
  | null => exact Tree.allChars_null
  | bool b => exact Tree.allChars_bool b
  | number n =>
    rw [toTree]
    cases n with
    | int i => exact Tree.allChars_number _
    | float x =>
      rw [Number.atom]
      split
      · exact Tree.allChars_number _
      · exact Tree.allChars_null
  | string s => exact Tree.allChars_quoted s
  | array items =>
    rw [toTree]
    exact Tree.allChars_ofItems style depth (allChars_treesOf style (depth + 1) items)
  | object members =>
    rw [toTree]
    exact Tree.allChars_ofEntries style depth (allChars_entriesOf style (depth + 1) members)

theorem allChars_treesOf (style : Style) (depth : Nat) (items : List Json) :
    ∀ t ∈ treesOf style depth items, t.AllChars := by
  match items with
  | [] => simp [treesOf]
  | j :: rest =>
    rw [treesOf, List.forall_mem_cons]
    exact ⟨allChars_toTree style depth j, allChars_treesOf style depth rest⟩

theorem allChars_entriesOf (style : Style) (depth : Nat) (members : List (String × Json)) :
    ∀ e ∈ entriesOf style depth members, e.2.AllChars := by
  match members with
  | [] => simp [entriesOf]
  | (k, j) :: rest =>
    rw [entriesOf, List.forall_mem_cons]
    exact ⟨allChars_toTree style depth j, allChars_entriesOf style depth rest⟩

end

/-- The bytes of a value are read as the tree that it is written as. -/
theorem parse?_bytes (j : Json) :
    Tree.parse? (Utf8.decode j.bytes) = some (j.toTree .compact 0) := by
  rw [bytes, Utf8.decode_encode]
  exact Tree.parse?_symbols_write (allChars_toTree .compact 0 j)

/-! ### No white space -/

theorem Items.ofList_compact (depth other : Nat) (first : Tree) (items : List Tree) :
    ofList .compact depth first items = ofList .compact other first items := by
  induction items generalizing first with
  | nil => rfl
  | cons t rest ih =>
    rw [ofList, ofList, ih]
    rfl

theorem Entries.ofList_compact (depth other : Nat) (first : String × Tree)
    (entries : List (String × Tree)) :
    ofList .compact depth first entries = ofList .compact other first entries := by
  induction entries generalizing first with
  | nil => rfl
  | cons e rest ih =>
    rw [ofList, ofList, ih]
    rfl

theorem Tree.ofItems_compact (depth other : Nat) (items : List Tree) :
    ofItems .compact depth items = ofItems .compact other items := by
  cases items with
  | nil => rfl
  | cons t rest => rw [ofItems, ofItems, Items.ofList_compact]

theorem Tree.ofEntries_compact (depth other : Nat) (entries : List (String × Tree)) :
    ofEntries .compact depth entries = ofEntries .compact other entries := by
  cases entries with
  | nil => rfl
  | cons e rest => rw [ofEntries, ofEntries, Entries.ofList_compact]

mutual

/-- Without white space it does not matter how many brackets stand around a value. -/
theorem toTree_compact (depth other : Nat) (j : Json) :
    j.toTree .compact depth = j.toTree .compact other := by
  cases j with
  | array items =>
    rw [toTree, toTree, treesOf_compact (depth + 1) (other + 1), Tree.ofItems_compact]
  | object members =>
    rw [toTree, toTree, entriesOf_compact (depth + 1) (other + 1), Tree.ofEntries_compact]
  | _ => simp only [toTree]

theorem treesOf_compact (depth other : Nat) (items : List Json) :
    treesOf .compact depth items = treesOf .compact other items := by
  match items with
  | [] => rfl
  | j :: rest =>
    rw [treesOf, treesOf, toTree_compact depth other j, treesOf_compact depth other rest]

theorem entriesOf_compact (depth other : Nat) (members : List (String × Json)) :
    entriesOf .compact depth members = entriesOf .compact other members := by
  match members with
  | [] => rfl
  | (k, j) :: rest =>
    rw [entriesOf, entriesOf, toTree_compact depth other j, entriesOf_compact depth other rest]

end

/-! ### Values that are kept -/

/-- A value whose numbers are whole and fit 64 bits, with a sign or without one, and whose members
are in their order. -/
inductive Whole : Json → Prop where
  | null : Whole .null
  | bool (b : Bool) : Whole (.bool b)
  | number (i : Int) (hlow : -0x8000000000000000 ≤ i) (hhigh : i < 0x10000000000000000) :
    Whole (.number (.int i))
  | string (s : String) : Whole (.string s)
  | array (items : List Json) (h : ∀ j ∈ items, Whole j) : Whole (.array items)
  | object (members : List (String × Json)) (hsorted : Members.Sorted members)
    (h : ∀ e ∈ members, Whole e.2) : Whole (.object members)

/-- No object in a value, however deep, begins with the name that embeds a text. -/
inductive EmbedsNothing : Json → Prop where
  | null : EmbedsNothing .null
  | bool (b : Bool) : EmbedsNothing (.bool b)
  | number (n : Number) : EmbedsNothing (.number n)
  | string (s : String) : EmbedsNothing (.string s)
  | array (items : List Json) (h : ∀ j ∈ items, EmbedsNothing j) : EmbedsNothing (.array items)
  | object (members : List (String × Json)) (hfirst : ∀ e ∈ members.head?, e.1 ≠ embeddingName)
    (h : ∀ e ∈ members, EmbedsNothing e.2) : EmbedsNothing (.object members)

theorem Whole.ofMembers {entries : List (String × Json)} (h : ∀ e ∈ entries, Whole e.2) :
    Whole (.ofMembers entries) :=
  .object _ (Members.sorted_ofList entries) fun e he => h e (Members.mem_of_mem_ofList he)

theorem EmbedsNothing.ofMembers {entries : List (String × Json)}
    (hnames : ∀ e ∈ entries, e.1 ≠ embeddingName) (h : ∀ e ∈ entries, EmbedsNothing e.2) :
    EmbedsNothing (.ofMembers entries) :=
  .object _ (fun e he => hnames e (Members.mem_of_mem_ofList (List.mem_of_mem_head? he)))
    fun e he => h e (Members.mem_of_mem_ofList he)

theorem nesting_array_le {style : Style} {k d : Nat} {items : List Json}
    (h : ∀ j ∈ items, (j.toTree style (k + 1)).nesting ≤ d) :
    ((array items).toTree style k).nesting ≤ d + 1 := by
  rw [toTree, treesOf_eq_map, Tree.nesting_ofItems_le, List.forall_mem_map]
  exact h

theorem nesting_ofMembers_le {style : Style} {k d : Nat} {entries : List (String × Json)}
    (h : ∀ e ∈ entries, (e.2.toTree style (k + 1)).nesting ≤ d) :
    ((ofMembers entries).toTree style k).nesting ≤ d + 1 := by
  rw [ofMembers, toTree, entriesOf_eq_map, Tree.nesting_ofEntries_le, List.forall_mem_map]
  exact fun e he => h e (Members.mem_of_mem_ofList he)

section Values

variable (embedded : List Symbol → Option Json) (depth : Nat)

theorem valueWith?_ofItems (style : Style) (k : Nat) (items : List Tree) :
    valueWith? embedded (depth + 1) (.ofItems style k items) =
      (items.mapM (valueWith? embedded depth)).map .array := by
  match items with
  | [] => rfl
  | first :: rest => simp [Tree.ofItems, valueWith?, Tree.items?, Items.toList_ofList]

theorem valueWith?_ofEntries (style : Style) (k : Nat) {entries : List (String × Tree)}
    (h : isEmbedding entries = false) :
    valueWith? embedded (depth + 1) (.ofEntries style k entries) =
      (entries.mapM fun e => (valueWith? embedded depth e.2).map fun value => (e.1, value)).map
        ofMembers := by
  have hitems := Tree.items?_ofEntries style k entries
  have hnamed := Tree.named?_ofEntries style k entries
  match entries with
  | [] => rfl
  | e :: rest =>
    rw [Tree.ofEntries] at hitems hnamed ⊢
    simp [valueWith?, hitems, hnamed, h]

variable {depth}

/-- Members are read back when their values are. -/
theorem mapM_valueWith?_members {style : Style} {k : Nat} {members : List (String × Json)}
    (h : ∀ e ∈ members, valueWith? embedded depth (toTree style k e.2) = some e.2) :
    ((members.map fun e => (e.1, toTree style k e.2)).mapM fun e =>
      (valueWith? embedded depth e.2).map fun value => (e.1, value)) = some members := by
  have hread := @mapM_map_eq_some _ _ _
    (fun e : String × Tree => (valueWith? embedded depth e.2).map fun value => (e.1, value))
    (fun e : String × Json => (e.1, toTree style k e.2)) id members
    fun e he => by rw [h e he]; rfl
  rwa [List.map_id] at hread

theorem valueWith?_toTree {style : Style} {k : Nat} {j : Json} (hwhole : j.Whole)
    (hembeds : j.EmbedsNothing) (h : (j.toTree style k).nesting ≤ depth) :
    valueWith? embedded depth (j.toTree style k) = some j := by
  induction hwhole generalizing depth k with
  | null | bool => cases depth <;> rfl
  | string s => cases depth <;> simp [toTree, valueWith?, Atom.value?, Quoted.value?_ofString]
  | number i hlow hhigh =>
    have hvalue := Numeral.value?_ofInt hlow hhigh
    cases depth <;> simp [toTree, valueWith?, Number.atom, Atom.value?, hvalue]
  | array items hwhole ih =>
    obtain _ | _ | _ | _ | ⟨_, hembeds⟩ := hembeds
    rw [toTree, treesOf_eq_map] at h ⊢
    have hpos := Tree.nesting_ofItems_pos style k (items.map (toTree style (k + 1)))
    obtain ⟨depth, rfl⟩ : ∃ d, depth = d + 1 := ⟨depth - 1, by omega⟩
    rw [Tree.nesting_ofItems_le, List.forall_mem_map] at h
    rw [valueWith?_ofItems, mapM_map_eq_some fun j hj => ih j hj (hembeds j hj) (h j hj)]
    simp
  | object members hsorted hwhole ih =>
    obtain _ | _ | _ | _ | _ | ⟨_, hfirst, hembeds⟩ := hembeds
    rw [toTree, entriesOf_eq_map] at h ⊢
    have hpos := Tree.nesting_ofEntries_pos style k
      (members.map fun e => (e.1, toTree style (k + 1) e.2))
    obtain ⟨depth, rfl⟩ : ∃ d, depth = d + 1 := ⟨depth - 1, by omega⟩
    rw [Tree.nesting_ofEntries_le, List.forall_mem_map] at h
    have hplain : isEmbedding (members.map fun e => (e.1, toTree style (k + 1) e.2)) = false := by
      cases members with
      | nil => rfl
      | cons e rest => simpa [isEmbedding] using hfirst e rfl
    have hmembers := mapM_valueWith?_members embedded fun e he => ih e he (hembeds e he) (h e he)
    rw [valueWith?_ofEntries embedded depth style k hplain, hmembers, Option.map_some, ofMembers,
      hsorted.ofList_eq]

/-- What a value is written as is read as the tree that was chosen for it. -/
theorem exists_read?_symbols_write (j : Json) :
    ∃ embedded, read? (Utf8.symbols j.write) =
      valueWith? embedded maxDepth (j.toTree .compact 0) := by
  have hparse : Tree.parse? (Utf8.symbols j.write) = some (j.toTree .compact 0) :=
    Tree.parse?_symbols_write (allChars_toTree .compact 0 j)
  cases hsymbols : Utf8.symbols j.write with
  | nil =>
    -- No tree is spelled by no symbols at all.
    rw [hsymbols] at hparse
    cases hparse
  | cons c rest =>
    refine ⟨readWithin rest.length, ?_⟩
    rw [read?, List.length_cons, readWithin, ← hsymbols, hparse, Option.bind_some]

/-- What a value is written as is read back as the value. -/
theorem read?_symbols_write {j : Json} (hwhole : j.Whole) (hembeds : j.EmbedsNothing)
    (h : (j.toTree .compact 0).nesting ≤ maxDepth) : read? (Utf8.symbols j.write) = some j := by
  obtain ⟨embedded, hread⟩ := exists_read?_symbols_write j
  rw [hread]
  exact valueWith?_toTree embedded hwhole hembeds h

end Values

/-! ### Objects as records -/

section Records

variable {style : Style} {k : Nat} {members : List (String × Json)}

/-- The members of an object are read back, whatever they are called. -/
theorem membersOfTree?_toTree {depth : Nat} (hsorted : Members.Sorted members)
    (h : ∀ e ∈ members,
      e.2.Whole ∧ e.2.EmbedsNothing ∧ (e.2.toTree style (k + 1)).nesting ≤ depth) :
    membersOfTree? (depth + 1) ((Json.object members).toTree style k) = some members := by
  have hmembers := mapM_valueWith?_members read? fun e he =>
    valueWith?_toTree read? (h e he).1 (h e he).2.1 (h e he).2.2
  simp only [membersOfTree?, toTree, entriesOf_eq_map, Tree.named?_ofEntries, ofTree?]
  rw [hmembers, Option.map_some, hsorted.ofList_eq]

theorem lookup_map (members : List (String × Json)) (write : Json → Tree) (name : String) :
    (members.map fun e => (e.1, write e.2)).lookup name =
      (Members.find? members name).map write := by
  induction members with
  | nil => rfl
  | cons e rest ih =>
    rw [List.map_cons, List.lookup_cons, Members.find?]
    by_cases h : e.1 = name
    · simp [h]
    · have hne : (name == e.1) = false := beq_eq_false_iff_ne.mpr (Ne.symm h)
      simp [h, hne, ih]

/-- The fields of a record are the members with their names. -/
theorem fields?_toTree (hnodup : (members.map Prod.fst).Nodup) (names : List String) :
    ((Json.object members).toTree style k).fields? names =
      some (names.map fun name => (Members.find? members name).map (toTree style (k + 1))) := by
  have hnames : (members.map fun e => (e.1, toTree style (k + 1) e.2)).map Prod.fst =
      members.map Prod.fst := by
    rw [List.map_map]
    rfl
  rw [toTree, entriesOf_eq_map,
    Tree.fields?_of_nodup (Tree.named?_ofEntries _ _ _) (hnames ▸ hnodup)]
  simp only [lookup_map]

end Records

end DocumentSearch.Json
