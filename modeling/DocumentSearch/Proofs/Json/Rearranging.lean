import DocumentSearch.Proofs.Json.Forms
import DocumentSearch.Proofs.Json.Respacing
import Mathlib.Data.List.Forall2
import Mathlib.Data.List.Zip

/-!
# Records spelled another way

A record is read by the names of its fields. So it does not matter in which order its members stand
or which others stand among them, and a field may be spelled in any way that is read alike.
-/

namespace DocumentSearch.Json

namespace Tree

/-! ### What a record is rearranged into -/

/-- A record with fields of these names, spelled another way: its members in any order and among any
others, told by the names that they spell, or its fields at their places. A value may change as is
allowed for its name. -/
inductive Rearranged (names : List String) (change : String → Tree → Tree → Prop) :
    Tree → Tree → Prop where
  | named {t t' : Tree} {entries kept added entries' : List (String × Tree)}
      (h : t.named? = some entries) (h' : t'.named? = some entries')
      (hkept : List.Forall₂ (fun e e' => e'.1 = e.1 ∧ change e.1 e.2 e'.2) entries kept)
      (hadded : ∀ e ∈ added, e.1 ∉ names) (horder : (kept ++ added).Perm entries') :
      Rearranged names change t t'
  | placed {t t' : Tree} {items items' : List Tree} (h : t.items? = some items)
      (h' : t'.items? = some items')
      (hkept : List.Forall₂ (fun e v' => change e.1 e.2 v') (names.zip items) items') :
      Rearranged names change t t'

/-! ### One name -/

section Lookup

variable {names : List String} {change : String → Tree → Tree → Prop} {name : String}
  {entries kept added entries' : List (String × Tree)}

theorem lookup_eq_head? (entries : List (String × Tree)) (name : String) :
    entries.lookup name = (entries.filter fun e => e.1 = name).head?.map Prod.snd := by
  induction entries with
  | nil => rfl
  | cons e rest ih =>
    rw [List.lookup_cons, List.filter_cons]
    by_cases h : e.1 = name
    · simp [h]
    · have hne : (name == e.1) = false := beq_eq_false_iff_ne.mpr (Ne.symm h)
      simp [h, hne, ih]

theorem forall₂_filter
    (h : List.Forall₂ (fun e e' => e'.1 = e.1 ∧ change e.1 e.2 e'.2) entries kept) (name : String) :
    List.Forall₂ (fun e e' => change name e.2 e'.2) (entries.filter fun e => e.1 = name)
      (kept.filter fun e => e.1 = name) := by
  induction h with
  | nil => exact .nil
  | @cons e e' rest rest' hhead _ ih =>
    obtain ⟨hname, hchange⟩ := hhead
    rw [List.filter_cons, List.filter_cons, hname]
    by_cases h : e.1 = name
    · simp only [h, decide_true, if_true]
      exact .cons (h ▸ hchange) ih
    · simpa [h] using ih

/-- Members of other names are in nobody's way. -/
theorem filter_perm (hadded : ∀ e ∈ added, e.1 ∉ names) (horder : (kept ++ added).Perm entries')
    (hname : name ∈ names) :
    (kept.filter fun e => e.1 = name).Perm (entries'.filter fun e => e.1 = name) := by
  have hnone : (added.filter fun e => e.1 = name) = [] := by
    rw [List.filter_eq_nil_iff]
    intro e he hsame
    exact hadded e he (of_decide_eq_true hsame ▸ hname)
  have hperm := horder.filter fun e => e.1 = name
  rwa [List.filter_append, hnone, List.append_nil] at hperm

/-- A name that stands at most once still does, and what stands under it has changed as allowed. -/
theorem lookup_rearranged
    (hkept : List.Forall₂ (fun e e' => e'.1 = e.1 ∧ change e.1 e.2 e'.2) entries kept)
    (hadded : ∀ e ∈ added, e.1 ∉ names) (horder : (kept ++ added).Perm entries')
    (hname : name ∈ names) (honce : (entries.filter fun e => e.1 = name).length ≤ 1) :
    (entries'.filter fun e => e.1 = name).length ≤ 1 ∧
      Option.Rel (change name) (entries.lookup name) (entries'.lookup name) := by
  have hfound := forall₂_filter hkept name
  have hperm := filter_perm hadded horder hname
  rw [lookup_eq_head?, lookup_eq_head?]
  generalize (entries.filter fun e => e.1 = name) = found at honce hfound
  generalize (kept.filter fun e => e.1 = name) = found' at hfound hperm
  cases hfound with
  | nil =>
    rw [List.nil_perm.mp hperm]
    exact ⟨Nat.zero_le 1, .none⟩
  | @cons e e' rest rest' hchange hrest =>
    obtain rfl : rest = [] := List.length_eq_zero_iff.mp (by simpa using honce)
    cases hrest
    rw [← List.singleton_perm.mp hperm]
    exact ⟨Nat.le_refl 1, .some hchange⟩

end Lookup

/-! ### All fields -/

section Fields

variable {names : List String} {change : String → Tree → Tree → Prop} {t t' : Tree}

theorem forall₂_places {items items' : List Tree}
    (h : List.Forall₂ (fun e v' => change e.1 e.2 v') (names.zip items) items')
    (hlength : items.length ≤ names.length) :
    items'.length = items.length ∧
      List.Forall₂ (fun e field' => Option.Rel (change e.1) e.2 field')
        (names.zip (items.map some ++ List.replicate (names.length - items.length) none))
        (items'.map some ++ List.replicate (names.length - items.length) none) := by
  induction names generalizing items items' with
  | nil =>
    obtain rfl := List.length_eq_zero_iff.mp (Nat.le_zero.mp hlength)
    cases h
    exact ⟨rfl, .nil⟩
  | cons name names ih =>
    cases items with
    | nil =>
      cases h
      obtain ⟨-, hrest⟩ := @ih [] [] (List.zip_nil_right ▸ .nil) (Nat.zero_le _)
      exact ⟨rfl, .cons .none hrest⟩
    | cons v items =>
      rw [List.zip_cons_cons] at h
      cases h with
      | @cons _ v' _ items' hchange hrest =>
        obtain ⟨hsame, hplaces⟩ := ih hrest (Nat.le_of_succ_le_succ hlength)
        refine ⟨congrArg Nat.succ hsame, ?_⟩
        simpa using ⟨hchange, hplaces⟩

/-- The fields of a rearranged record are those of the record, changed as allowed. -/
theorem Rearranged.fields? (h : Rearranged names change t t') {fields : List (Option Tree)}
    (hfields : t.fields? names = some fields) :
    ∃ fields', t'.fields? names = some fields' ∧
      List.Forall₂ (fun e field' => Option.Rel (change e.1) e.2 field') (names.zip fields)
        fields' := by
  cases h with
  | @named entries kept added entries' h h' hkept hadded horder =>
    rw [fields?_of_named? h] at hfields
    split at hfields
    next honce =>
      have hlookup (name : String) (hname : name ∈ names) :=
        lookup_rearranged hkept hadded horder hname (honce name hname)
      refine ⟨names.map fun name => entries'.lookup name, ?_, ?_⟩
      · rw [fields?_of_named? h', if_pos fun name hname => (hlookup name hname).1]
      · obtain rfl := Option.some.inj hfields
        rw [← List.map_prod_left_eq_zip, List.forall₂_map_left_iff, List.forall₂_map_right_iff,
          List.forall₂_same]
        exact fun name hname => (hlookup name hname).2
    next => cases hfields
  | @placed items items' h h' hkept =>
    rw [fields?_of_items? h] at hfields
    split at hfields
    next hlength =>
      obtain ⟨hsame, hplaces⟩ := forall₂_places hkept hlength
      obtain rfl := Option.some.inj hfields
      refine ⟨_, ?_, hplaces⟩
      rw [fields?_of_items? h', if_pos (hsame ▸ hlength), hsame]
    next => cases hfields

theorem Rearranged.inside? (h : Rearranged names change t t') (depth : Nat) :
    t'.inside? depth = t.inside? depth := by
  cases h with
  | named h h' => rw [inside?_of_named? h, inside?_of_named? h']
  | placed h h' => rw [inside?_of_items? h, inside?_of_items? h']

theorem Rearranged.inside?_succ (h : Rearranged names change t t') (depth : Nat) :
    t.inside? (depth + 1) = some depth := by
  cases h with
  | named h => exact inside?_of_named? h (depth + 1)
  | placed h => exact inside?_of_items? h (depth + 1)

end Fields

/-- Written records are rearranged when their members are. -/
theorem rearranged_ofEntries (style style' : Style) (depth depth' : Nat) {names : List String}
    {change : String → Tree → Tree → Prop} {entries entries' : List (String × Tree)}
    (kept added : List (String × Tree))
    (hkept : List.Forall₂ (fun e e' => e'.1 = e.1 ∧ change e.1 e.2 e'.2) entries kept)
    (hadded : ∀ e ∈ added, e.1 ∉ names) (horder : (kept ++ added).Perm entries') :
    Rearranged names change (ofEntries style depth entries) (ofEntries style' depth' entries') :=
  .named (named?_ofEntries style depth entries) (named?_ofEntries style' depth' entries') hkept
    hadded horder

/-- Arrays of as many elements, each changed as allowed. -/
def Elementwise (change : Tree → Tree → Prop) (t t' : Tree) : Prop :=
  ∃ items items', t.items? = some items ∧ t'.items? = some items' ∧
    List.Forall₂ change items items'

end Tree

/-! ### Readers that do not see the change -/

/-- What is read from a value is still read from it when the value has changed as allowed. -/
def Keeps {α : Type} (change : Tree → Tree → Prop) (read : Tree → Option α) : Prop :=
  ∀ t t' a, change t t' → read t = some a → read t' = some a

/-- What is read from a value becomes `f` of it when the value has changed as allowed. -/
def Turns {α : Type} (change : Tree → Tree → Prop) (f : α → α) (read : Tree → Option α) : Prop :=
  ∀ t t' a, change t t' → read t = some a → read t' = some (f a)

section Readers

variable {α : Type} {change : Tree → Tree → Prop} {f : α → α} {read : Tree → Option α}

theorem keeps_eq (read : Tree → Option α) : Keeps Eq read := by
  rintro t _ a rfl h
  exact h

theorem keeps_respaced (h : ∀ t : Tree, read t.squeezed = read t) : Keeps Tree.Respaced read := by
  intro t t' a hspaces hread
  rw [← h t', ← Tree.respaced_iff.mp hspaces, h t, hread]

theorem Turns.requiredField (hturns : Turns change f read) {field field' : Option Tree}
    (hfield : Option.Rel change field field') {a : α} (h : requiredField read field = some a) :
    requiredField read field' = some (f a) := by
  cases hfield with
  | none => cases h
  | some hchange => exact hturns _ _ a hchange h

/-- A field that is left out still is, so what it is read as by default has to stay. -/
theorem Turns.optionalField (hturns : Turns change f read) {default : α}
    (hdefault : f default = default) {field field' : Option Tree}
    (hfield : Option.Rel change field field') {a : α}
    (h : optionalField default read field = some a) :
    optionalField default read field' = some (f a) := by
  cases hfield with
  | none =>
    obtain rfl := Option.some.inj h
    exact congrArg some hdefault.symm
  | some hchange => exact hturns _ _ a hchange h

theorem Keeps.requiredField (hkeeps : Keeps change read) {field field' : Option Tree}
    (hfield : Option.Rel change field field') {a : α} (h : requiredField read field = some a) :
    requiredField read field' = some a :=
  Turns.requiredField (f := id) hkeeps hfield h

theorem Keeps.optionalField (hkeeps : Keeps change read) {field field' : Option Tree}
    (hfield : Option.Rel change field field') {default a : α}
    (h : optionalField default read field = some a) :
    optionalField default read field' = some a :=
  Turns.optionalField (f := id) hkeeps rfl hfield h

theorem Keeps.mapM (hkeeps : Keeps change read) {items items' : List Tree}
    (hitems : List.Forall₂ change items items') {as : List α} (h : items.mapM read = some as) :
    items'.mapM read = some as := by
  induction hitems generalizing as with
  | nil => exact h
  | @cons v v' items items' hchange _ ih =>
    rw [List.mapM_cons] at h ⊢
    obtain ⟨a, ha, h⟩ := Option.bind_eq_some_iff.mp h
    obtain ⟨rest, hrest, h⟩ := Option.bind_eq_some_iff.mp h
    rw [hkeeps v v' a hchange ha, ih hrest]
    exact h

/-- Of a list in which one value has changed, one value that is read becomes `f` of it. -/
theorem Keeps.mapM_modify (hkeeps : Keeps change read) {change' : Tree → Tree → Prop}
    (hturns : Turns change' f read) {before before' after after' : List Tree} {v v' : Tree}
    (hbefore : List.Forall₂ change before before') (hv : change' v v')
    (hafter : List.Forall₂ change after after') {as : List α}
    (h : (before ++ v :: after).mapM read = some as) :
    (before' ++ v' :: after').mapM read = some (as.modify before.length f) := by
  induction hbefore generalizing as with
  | nil =>
    rw [List.nil_append, List.mapM_cons] at h ⊢
    obtain ⟨a, ha, h⟩ := Option.bind_eq_some_iff.mp h
    obtain ⟨rest, hrest, h⟩ := Option.bind_eq_some_iff.mp h
    obtain rfl := Option.some.inj h
    rw [hturns v v' a hv ha, hkeeps.mapM hafter hrest]
    rfl
  | @cons w w' before before' hchange _ ih =>
    rw [List.cons_append, List.mapM_cons] at h ⊢
    obtain ⟨a, ha, h⟩ := Option.bind_eq_some_iff.mp h
    obtain ⟨rest, hrest, h⟩ := Option.bind_eq_some_iff.mp h
    obtain rfl := Option.some.inj h
    rw [hkeeps w w' a hchange ha, ih hrest]
    rfl

theorem Keeps.list? (hkeeps : Keeps change read) :
    Keeps (Tree.Elementwise change) (Tree.list? read) := by
  rintro t t' as ⟨items, items', h, h', hitems⟩ hread
  rw [Tree.list?, h, Option.bind_some] at hread
  rw [Tree.list?, h', Option.bind_some, hkeeps.mapM hitems hread]

theorem squeezed_orNull? (h : ∀ t : Tree, read t.squeezed = read t) (t : Tree) :
    t.squeezed.orNull? read = t.orNull? read := by
  have hread := h t
  cases t with
  | atom a => rfl
  | _ => exact congrArg (Option.map some) hread

end Readers

end DocumentSearch.Json
