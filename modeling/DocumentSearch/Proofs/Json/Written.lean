import DocumentSearch.Json.Writer
import DocumentSearch.Proofs.Json.Parsing

/-!
# Reading written text back

What is written is the text of a tree, and a tree with nothing but characters in its text is read
back from it.
-/

namespace DocumentSearch.Json

open Utf8 (Symbol)

/-! ### The tokens of one tree after those of another -/

mutual

theorem Tree.tokensThen_append (t : Tree) (rest others : List Token) :
    t.tokensThen (rest ++ others) = t.tokensThen rest ++ others := by
  cases t with
  | atom a => rfl
  | emptyArray s => simp [Tree.tokensThen]
  | array items => simp [Tree.tokensThen, ← items.tokensThen_append]
  | emptyObject s => simp [Tree.tokensThen]
  | object entries => simp [Tree.tokensThen, ← entries.tokensThen_append]

theorem Items.tokensThen_append (items : Items) (rest others : List Token) :
    items.tokensThen (rest ++ others) = items.tokensThen rest ++ others := by
  cases items with
  | last b v a => simp [Items.tokensThen, ← v.tokensThen_append]
  | cons b v a more =>
    simp [Items.tokensThen, ← v.tokensThen_append, ← more.tokensThen_append]

theorem Entries.tokensThen_append (entries : Entries) (rest others : List Token) :
    entries.tokensThen (rest ++ others) = entries.tokensThen rest ++ others := by
  cases entries with
  | last b k a b' v a' => simp [Entries.tokensThen, ← v.tokensThen_append]
  | cons b k a b' v a' more =>
    simp [Entries.tokensThen, ← v.tokensThen_append, ← more.tokensThen_append]

end

theorem Tree.tokensThen_eq (t : Tree) (rest : List Token) : t.tokensThen rest = t.tokens ++ rest :=
  t.tokensThen_append [] rest

/-! ### Text without stray bytes -/

/-- Nothing but characters stands in the text of these tokens. -/
def AllChars (tokens : List Token) : Prop :=
  ∀ x ∈ tokens.flatMap Token.text, x.char?.isSome

theorem allChars_append (tokens others : List Token) :
    AllChars (tokens ++ others) ↔ AllChars tokens ∧ AllChars others := by
  simp only [AllChars, List.flatMap_append, List.forall_mem_append]

theorem allChars_cons (t : Token) (tokens : List Token) :
    AllChars (t :: tokens) ↔ (∀ x ∈ t.text, x.char?.isSome) ∧ AllChars tokens := by
  simp only [AllChars, List.flatMap_cons, List.forall_mem_append]

theorem allChars_cons_of_not_isAtom {t : Token} (h : t.isAtom = false) (tokens : List Token) :
    AllChars (t :: tokens) ↔ AllChars tokens := by
  rw [allChars_cons, and_iff_right]
  cases t with
  | atom a => cases h
  | _ => simp [Token.text, Symbol.char?]

theorem allChars_spaces (s : Spaces) : AllChars (Spaces.tokens s) := by
  induction s with
  | nil => simp [Spaces.tokens, AllChars]
  | cons c s ih =>
    rw [Spaces.tokens, List.map_cons, allChars_cons_of_not_isAtom rfl]
    exact ih

theorem map_char_filterMap {s : List Symbol} (h : ∀ x ∈ s, x.char?.isSome) :
    (s.filterMap Symbol.char?).map Symbol.char = s := by
  induction s with
  | nil => rfl
  | cons x s ih =>
    rw [List.forall_mem_cons] at h
    obtain ⟨hx, hs⟩ := h
    cases x with
    | char c =>
      have hc : (Symbol.char c).char? = some c := rfl
      rw [List.filterMap_cons_some hc, List.map_cons, ih hs]
    | stray bytes => cases hx

theorem isSome_char?_of_mem_chars {cs : List Char} {x : Symbol} (h : x ∈ chars cs) :
    x.char?.isSome := by
  obtain ⟨c, -, rfl⟩ := List.mem_map.mp h
  rfl

theorem Piece.isSome_char?_ofChar (c : Char) : ∀ x ∈ (ofChar c).text, x.char?.isSome := by
  intro x hx
  rw [ofChar] at hx
  cases hshort : shortFor? c with
  | some e =>
    rw [hshort] at hx
    exact isSome_char?_of_mem_chars hx
  | none =>
    rw [hshort] at hx
    by_cases hplain : 0x20 ≤ c.toNat ∧ c ≠ '"' ∧ c ≠ '\\'
    · simp only [dif_pos hplain] at hx
      exact @isSome_char?_of_mem_chars [c] x hx
    · simp only [dif_neg hplain] at hx
      exact isSome_char?_of_mem_chars hx

theorem Quoted.isSome_char?_ofString (s : String) :
    ∀ x ∈ Quoted.text (ofString s), x.char?.isSome := by
  intro x hx
  rw [Quoted.text, List.mem_cons, List.mem_append, List.mem_singleton] at hx
  obtain rfl | hx | rfl := hx
  · rfl
  · obtain ⟨p, hp, hx⟩ := List.mem_flatMap.mp hx
    obtain ⟨c, -, rfl⟩ := List.mem_map.mp hp
    exact Piece.isSome_char?_ofChar c x hx
  · rfl

namespace Tree

def AllChars (t : Tree) : Prop := Json.AllChars t.tokens

theorem allChars_tokensThen (t : Tree) (rest : List Token) :
    Json.AllChars (t.tokensThen rest) ↔ t.AllChars ∧ Json.AllChars rest := by
  rw [tokensThen_eq, allChars_append, AllChars]

theorem allChars_quoted (s : String) : (quoted s).AllChars := by
  rw [AllChars, quoted, tokens, tokensThen, allChars_cons]
  exact ⟨Quoted.isSome_char?_ofString s, by simp [Json.AllChars]⟩

theorem allChars_null : (atom .null).AllChars := by
  simp [AllChars, Json.AllChars, tokens, tokensThen, Token.text, Atom.text, chars, Symbol.char?]

theorem allChars_bool (b : Bool) : (atom (.bool b)).AllChars := by
  cases b <;> simp [AllChars, Json.AllChars, tokens, tokensThen, Token.text, Atom.text, chars,
    Symbol.char?]

theorem allChars_number (n : Numeral) : (atom (.number n)).AllChars := by
  rw [AllChars, tokens, tokensThen, allChars_cons]
  exact ⟨fun x hx => isSome_char?_of_mem_chars hx, by simp [Json.AllChars]⟩

theorem allChars_items (style : Style) (depth : Nat) (first : Tree) (items : List Tree)
    {rest : List Token} (h : ∀ t ∈ first :: items, t.AllChars) (hrest : Json.AllChars rest) :
    Json.AllChars ((Items.ofList style depth first items).tokensThen rest) := by
  induction items generalizing first with
  | nil =>
    rw [List.forall_mem_singleton] at h
    simp only [Items.ofList, Items.tokensThen, allChars_append, allChars_tokensThen,
      allChars_spaces, h, hrest, and_self]
  | cons t items ih =>
    rw [List.forall_mem_cons] at h
    simp only [Items.ofList, Items.tokensThen, allChars_append, allChars_tokensThen,
      allChars_spaces, h.1, true_and]
    rw [allChars_cons_of_not_isAtom rfl]
    exact ih t h.2

theorem allChars_entries (style : Style) (depth : Nat) (first : String × Tree)
    (entries : List (String × Tree)) {rest : List Token}
    (h : ∀ e ∈ first :: entries, e.2.AllChars) (hrest : Json.AllChars rest) :
    Json.AllChars ((Entries.ofList style depth first entries).tokensThen rest) := by
  have hname : ∀ (e : String × Tree) (tokens : List Token), Json.AllChars tokens →
      Json.AllChars (.atom (.string (Quoted.ofString e.1)) :: tokens) := by
    intro e tokens htokens
    exact (allChars_cons _ _).mpr ⟨Quoted.isSome_char?_ofString e.1, htokens⟩
  induction entries generalizing first with
  | nil =>
    rw [List.forall_mem_singleton] at h
    rw [Entries.ofList, Entries.tokensThen, allChars_append]
    refine ⟨allChars_spaces _, hname first _ ?_⟩
    simp only [allChars_append, allChars_cons_of_not_isAtom (t := .colon) rfl, allChars_tokensThen,
      allChars_spaces, h, hrest, and_self]
  | cons e entries ih =>
    rw [List.forall_mem_cons] at h
    rw [Entries.ofList, Entries.tokensThen, allChars_append]
    refine ⟨allChars_spaces _, hname first _ ?_⟩
    simp only [allChars_append, allChars_cons_of_not_isAtom (t := .colon) rfl,
      allChars_cons_of_not_isAtom (t := .comma) rfl, allChars_tokensThen, allChars_spaces, h.1,
      true_and]
    exact ih e h.2

theorem allChars_ofItems (style : Style) (depth : Nat) {items : List Tree}
    (h : ∀ t ∈ items, t.AllChars) : (ofItems style depth items).AllChars := by
  have hclose : Json.AllChars [.closeArray] := by
    simp [Json.AllChars, Token.text, Symbol.char?]
  cases items with
  | nil =>
    rw [AllChars, ofItems, tokens, tokensThen, allChars_cons_of_not_isAtom rfl]
    exact hclose
  | cons first rest =>
    rw [AllChars, ofItems, tokens, tokensThen, allChars_cons_of_not_isAtom rfl]
    exact allChars_items style (depth + 1) first rest h hclose

theorem allChars_ofEntries (style : Style) (depth : Nat) {entries : List (String × Tree)}
    (h : ∀ e ∈ entries, e.2.AllChars) : (ofEntries style depth entries).AllChars := by
  have hclose : Json.AllChars [.closeObject] := by
    simp [Json.AllChars, Token.text, Symbol.char?]
  cases entries with
  | nil =>
    rw [AllChars, ofEntries, tokens, tokensThen, allChars_cons_of_not_isAtom rfl]
    exact hclose
  | cons first rest =>
    rw [AllChars, ofEntries, tokens, tokensThen, allChars_cons_of_not_isAtom rfl]
    exact allChars_entries style (depth + 1) first rest h hclose

theorem allChars_listed {items : List Tree} (h : ∀ t ∈ items, t.AllChars) :
    (listed items).AllChars :=
  allChars_ofItems .compact 0 h

theorem allChars_record {fields : List (String × Tree)} (h : ∀ e ∈ fields, e.2.AllChars) :
    (record fields).AllChars :=
  allChars_ofEntries .compact 0 h

theorem symbols_write {t : Tree} (h : t.AllChars) : Utf8.symbols t.write = t.text := by
  rw [Utf8.symbols, write, String.toList_ofList]
  exact map_char_filterMap h

/-- A tree is read back from what is written. -/
theorem parse?_symbols_write {t : Tree} (h : t.AllChars) :
    parse? (Utf8.symbols t.write) = some t := by
  rw [symbols_write h, parse?_text]

end Tree

end DocumentSearch.Json
