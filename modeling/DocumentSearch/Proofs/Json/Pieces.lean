import DocumentSearch.Json.Form
import DocumentSearch.Proofs.Json.Written
import Mathlib.Data.List.Infix

/-!
# Pieces of a text

Elements and members are spelled by a stretch of what their array or object is spelled by. So
whatever value is found in a tree, however deep, its text is one piece of the whole text.
-/

namespace DocumentSearch.Json

/-! ### Tokens -/

theorem infix_append_of_right {α : Type} {piece rest : List α} (h : piece <:+: rest)
    (before : List α) : piece <:+: before ++ rest :=
  h.trans (List.suffix_append before rest).isInfix

theorem infix_cons_of_tail {α : Type} {piece rest : List α} (h : piece <:+: rest) (x : α) :
    piece <:+: x :: rest :=
  h.trans (List.suffix_cons x rest).isInfix

theorem Tree.infix_tokensThen (t : Tree) (rest : List Token) : t.tokens <:+: t.tokensThen rest := by
  rw [Tree.tokensThen_eq]
  exact (List.prefix_append t.tokens rest).isInfix

theorem infix_tokensThen_of_rest (t : Tree) {piece rest : List Token} (h : piece <:+: rest) :
    piece <:+: t.tokensThen rest := by
  rw [Tree.tokensThen_eq]
  exact infix_append_of_right h t.tokens

theorem Items.infix_tokensThen (items : Items) {v : Tree} (h : v ∈ items.toList)
    (rest : List Token) : v.tokens <:+: items.tokensThen rest := by
  match items with
  | .last b v' a =>
    obtain rfl := List.mem_singleton.mp h
    exact infix_append_of_right (v.infix_tokensThen _) _
  | .cons b v' a more =>
    apply infix_append_of_right
    obtain rfl | h := List.mem_cons.mp h
    · exact v.infix_tokensThen _
    · apply infix_tokensThen_of_rest
      apply infix_append_of_right
      exact infix_cons_of_tail (more.infix_tokensThen h rest) _

theorem Entries.infix_tokensThen (entries : Entries) {e : Quoted × Tree} (h : e ∈ entries.toList)
    (rest : List Token) : e.2.tokens <:+: entries.tokensThen rest := by
  -- Past the name and the colon both forms go on with the value.
  have hmember {piece tokens : List Token} (hpiece : piece <:+: tokens) (b : Spaces) (k : Quoted)
      (a b' : Spaces) : piece <:+: Spaces.tokens b ++ .atom (.string k) :: (Spaces.tokens a ++
        .colon :: (Spaces.tokens b' ++ tokens)) := by
    apply infix_append_of_right
    apply infix_cons_of_tail
    apply infix_append_of_right
    apply infix_cons_of_tail
    exact infix_append_of_right hpiece _
  match entries with
  | .last b k a b' v a' =>
    obtain rfl := List.mem_singleton.mp h
    exact hmember (v.infix_tokensThen _) b k a b'
  | .cons b k a b' v a' more =>
    apply hmember
    obtain rfl | h := List.mem_cons.mp h
    · exact v.infix_tokensThen _
    · apply infix_tokensThen_of_rest
      apply infix_append_of_right
      exact infix_cons_of_tail (more.infix_tokensThen h rest) _

/-! ### Values inside a value -/

namespace Tree

variable {t v : Tree}

/-- Its tokens stand in those of `t`, one after the other. -/
def Within (v t : Tree) : Prop := v.tokens <:+: t.tokens

theorem Within.trans {u : Tree} (h : u.Within v) (h' : v.Within t) : u.Within t :=
  List.IsInfix.trans h h'

theorem within_of_items? {items : List Tree} (h : t.items? = some items) (hv : v ∈ items) :
    v.Within t := by
  cases t with
  | emptyArray =>
    obtain rfl := Option.some.inj h
    cases hv
  | array items' =>
    obtain rfl := Option.some.inj h
    exact infix_cons_of_tail (items'.infix_tokensThen hv _) _
  | _ => cases h

theorem within_of_entries? {entries : List (Quoted × Tree)} (h : t.entries? = some entries)
    {e : Quoted × Tree} (he : e ∈ entries) : e.2.Within t := by
  cases t with
  | emptyObject =>
    obtain rfl := Option.some.inj h
    cases he
  | object entries' =>
    obtain rfl := Option.some.inj h
    exact infix_cons_of_tail (entries'.infix_tokensThen he _) _
  | _ => cases h

theorem exists_of_mem_mapM {α β : Type} {f : α → Option β} {xs : List α} {ys : List β}
    (h : xs.mapM f = some ys) {y : β} (hy : y ∈ ys) : ∃ x ∈ xs, f x = some y := by
  induction xs generalizing ys with
  | nil =>
    obtain rfl := Option.some.inj h
    cases hy
  | cons x xs ih =>
    rw [List.mapM_cons] at h
    obtain ⟨y', hy', h⟩ := Option.bind_eq_some_iff.mp h
    obtain ⟨rest, hrest, h⟩ := Option.bind_eq_some_iff.mp h
    obtain rfl := Option.some.inj h
    obtain rfl | hy := List.mem_cons.mp hy
    · exact ⟨x, List.mem_cons_self, hy'⟩
    · obtain ⟨x', hx', hread⟩ := ih hrest hy
      exact ⟨x', List.mem_cons_of_mem x hx', hread⟩

theorem within_of_named? {entries : List (String × Tree)} (h : t.named? = some entries)
    {e : String × Tree} (he : e ∈ entries) : e.2.Within t := by
  obtain ⟨spelled, hspelled, hread⟩ := Option.bind_eq_some_iff.mp h
  obtain ⟨⟨k, v⟩, hmem, hname⟩ := exists_of_mem_mapM hread he
  obtain ⟨name, -, rfl⟩ := Option.map_eq_some_iff.mp hname
  exact within_of_entries? hspelled hmem

/-- A field of a record is a piece of it, by name or by position. -/
theorem within_of_fields? {names : List String} {fields : List (Option Tree)}
    (h : t.fields? names = some fields) (hv : some v ∈ fields) : v.Within t := by
  unfold fields? at h
  split at h
  next items hitems =>
    split at h
    next =>
      cases h
      have hmem : v ∈ items := by simpa using hv
      exact within_of_items? hitems hmem
    next => cases h
  next =>
    split at h
    next entries hnamed =>
      split at h
      next =>
        cases h
        obtain ⟨name, -, hlookup⟩ := List.mem_map.mp hv
        obtain ⟨before, after, rfl, -⟩ := List.lookup_eq_some_iff.mp hlookup
        have hmem : (name, v) ∈ before ++ (name, v) :: after := by simp
        exact within_of_named? hnamed hmem
      next => cases h
    next => cases h

theorem Within.text_infix (h : v.Within t) : v.text <:+: t.text := List.IsInfix.flatMap h Token.text

end Tree

theorem Padded.infix_text (p : Padded) : p.value.text <:+: p.text := by
  apply List.IsInfix.flatMap
  exact infix_append_of_right (p.value.infix_tokensThen _) _

end DocumentSearch.Json
