import DocumentSearch.Json.Form
import DocumentSearch.Proofs.Json.Parsing
import Mathlib.Data.List.Basic

/-!
# White space between tokens

Two trees with the same tokens, blanks apart, are the same tree once their white space is taken out,
since the tokens of a tree are read back as that tree. So what is read from a tree without looking
at its white space is the same for both: the names of its members, its values, and whether it is
readable.
-/

namespace DocumentSearch.Json

open Utf8 (Symbol)

def Token.isBlank : Token → Bool
  | .blank _ => true
  | _ => false

/-- The tokens that are no white space. -/
def solid (tokens : List Token) : List Token := tokens.filter fun t => !t.isBlank

/-- The same tokens in the same order, with any white space between them. -/
def Tree.Respaced (t t' : Tree) : Prop := solid t.tokens = solid t'.tokens

/-! ### Taking the white space out -/

mutual

/-- A tree without its white space. -/
def Tree.squeezed : Tree → Tree
  | .atom a => .atom a
  | .emptyArray _ => .emptyArray []
  | .array items => .array items.squeezed
  | .emptyObject _ => .emptyObject []
  | .object entries => .object entries.squeezed

def Items.squeezed : Items → Items
  | .last _ v _ => .last [] v.squeezed []
  | .cons _ v _ rest => .cons [] v.squeezed [] rest.squeezed

def Entries.squeezed : Entries → Entries
  | .last _ k _ _ v _ => .last [] k [] [] v.squeezed []
  | .cons _ k _ _ v _ rest => .cons [] k [] [] v.squeezed [] rest.squeezed

end

@[simp] theorem solid_append (tokens others : List Token) :
    solid (tokens ++ others) = solid tokens ++ solid others := List.filter_append ..

@[simp] theorem solid_cons (t : Token) (tokens : List Token) :
    solid (t :: tokens) = if t.isBlank then solid tokens else t :: solid tokens := by
  rw [solid, List.filter_cons]
  cases t.isBlank <;> rfl

@[simp] theorem solid_spaces (s : Spaces) : solid (Spaces.tokens s) = [] := by
  rw [solid, Spaces.tokens, List.filter_map]
  simp [Function.comp_def, Token.isBlank]

@[simp] theorem tokens_nil : Spaces.tokens [] = [] := rfl

mutual

theorem Tree.tokensThen_squeezed (t : Tree) (rest : List Token) :
    t.squeezed.tokensThen (solid rest) = solid (t.tokensThen rest) := by
  cases t with
  | atom a => rfl
  | emptyArray s | emptyObject s =>
    simp [Tree.squeezed, Tree.tokensThen, Token.isBlank]
  | array items =>
    simp [Tree.squeezed, Tree.tokensThen, Token.isBlank, ← items.tokensThen_squeezed]
  | object entries =>
    simp [Tree.squeezed, Tree.tokensThen, Token.isBlank, ← entries.tokensThen_squeezed]

theorem Items.tokensThen_squeezed (items : Items) (rest : List Token) :
    items.squeezed.tokensThen (solid rest) = solid (items.tokensThen rest) := by
  cases items with
  | last b v a =>
    simp [Items.squeezed, Items.tokensThen, ← v.tokensThen_squeezed]
  | cons b v a more =>
    simp [Items.squeezed, Items.tokensThen, Token.isBlank,
      ← v.tokensThen_squeezed, ← more.tokensThen_squeezed]

theorem Entries.tokensThen_squeezed (entries : Entries) (rest : List Token) :
    entries.squeezed.tokensThen (solid rest) = solid (entries.tokensThen rest) := by
  cases entries with
  | last b k a b' v a' =>
    simp [Entries.squeezed, Entries.tokensThen, Token.isBlank,
      ← v.tokensThen_squeezed]
  | cons b k a b' v a' more =>
    simp [Entries.squeezed, Entries.tokensThen, Token.isBlank,
      ← v.tokensThen_squeezed, ← more.tokensThen_squeezed]

end

theorem Tree.tokens_squeezed (t : Tree) : t.squeezed.tokens = solid t.tokens :=
  t.tokensThen_squeezed []

/-- A tree is told by its tokens. -/
theorem Tree.tokens_injective {t t' : Tree} (h : t.tokens = t'.tokens) : t = t' := by
  have hread (t : Tree) : Padded.ofTokens? t.tokens = some ⟨[], t, []⟩ :=
    Padded.ofTokens?_tokens ⟨[], t, []⟩
  have hsame := (hread t).symm.trans (h ▸ hread t')
  exact congrArg Padded.value (Option.some.inj hsame)

theorem Tree.respaced_iff {t t' : Tree} : t.Respaced t' ↔ t.squeezed = t'.squeezed := by
  rw [Respaced, ← tokens_squeezed, ← tokens_squeezed]
  exact ⟨tokens_injective, fun h => h ▸ rfl⟩

/-! ### What is read without it -/

theorem Items.toList_squeezed (items : Items) :
    items.squeezed.toList = items.toList.map Tree.squeezed := by
  match items with
  | .last _ v _ => rfl
  | .cons _ v _ rest => rw [squeezed, toList, toList, List.map_cons, rest.toList_squeezed]

theorem Entries.toList_squeezed (entries : Entries) :
    entries.squeezed.toList = entries.toList.map fun e => (e.1, e.2.squeezed) := by
  match entries with
  | .last _ _ _ _ v _ => rfl
  | .cons _ _ _ _ v _ rest => rw [squeezed, toList, toList, List.map_cons, rest.toList_squeezed]

namespace Tree

variable (t : Tree)

theorem entries?_squeezed :
    t.squeezed.entries? = t.entries?.map (List.map fun e => (e.1, e.2.squeezed)) := by
  cases t with
  | object entries =>
    rw [squeezed, entries?, entries?, entries.toList_squeezed, Option.map_some]
  | _ => rfl

theorem named?_squeezed :
    t.squeezed.named? = t.named?.map (List.map fun e => (e.1, e.2.squeezed)) := by
  have hread (entries : List (Quoted × Tree)) :
      ((entries.map fun e => (e.1, e.2.squeezed)).mapM fun e =>
          (Quoted.value? e.1).map fun k => (k, e.2)) =
        (entries.mapM fun e => (Quoted.value? e.1).map fun k => (k, e.2)).map
          (List.map fun e => (e.1, e.2.squeezed)) := by
    induction entries with
    | nil => rfl
    | cons e rest ih =>
      rw [List.map_cons, List.mapM_cons, List.mapM_cons, ih]
      cases Quoted.value? e.1 with
      | none => rfl
      | some k =>
        cases rest.mapM fun e => (Quoted.value? e.1).map fun k => (k, e.2) <;> rfl
  rw [named?, named?, entries?_squeezed]
  cases t.entries? with
  | none => rfl
  | some entries => exact hread entries

theorem isReadable_array (depth : Nat) (items : Items) :
    isReadable (depth + 1) (.array items) = items.toList.all (isReadable depth) := rfl

theorem isReadable_object (depth : Nat) (entries : Entries) :
    isReadable (depth + 1) (.object entries) =
      ((Tree.object entries).named?.map fun named =>
        named.all fun e => isReadable depth e.2).getD false := by
  simp only [isReadable, items?]
  cases (Tree.object entries).named? <;> rfl

theorem isReadable_of_named? {t : Tree} {entries : List (String × Tree)}
    (h : t.named? = some entries) (depth : Nat) :
    t.isReadable (depth + 1) = entries.all fun e => e.2.isReadable depth := by
  cases t with
  | emptyObject => obtain rfl := Option.some.inj h; rfl
  | object => rw [isReadable_object, h]; rfl
  | _ => cases h

theorem isReadable_squeezed (depth : Nat) : t.squeezed.isReadable depth = t.isReadable depth := by
  induction depth generalizing t with
  | zero => cases t <;> rfl
  | succ depth ih =>
    cases t with
    | atom | emptyArray | emptyObject => rfl
    | array items =>
      have hsame : isReadable depth ∘ squeezed = isReadable depth := funext ih
      rw [squeezed, isReadable_array, isReadable_array, items.toList_squeezed, List.all_map, hsame]
    | object entries =>
      have hnamed := named?_squeezed (.object entries)
      rw [squeezed] at hnamed ⊢
      rw [isReadable_object, isReadable_object, hnamed, Option.map_map]
      simp only [Function.comp_def, List.all_map, ih]

end Tree

section Values

variable (embedded : List Symbol → Option Json) (depth : Nat)

theorem valueWith?_array (items : Items) :
    valueWith? embedded (depth + 1) (.array items) =
      (items.toList.mapM (valueWith? embedded depth)).map .array := rfl

/-- The value of an object with these members. -/
def objectWith? (entries : List (String × Tree)) : Option Json :=
  if isEmbedding entries then
    (embeddedText? entries).bind fun text => embedded (Utf8.symbols text)
  else
    (entries.mapM fun e =>
      (valueWith? embedded depth e.2).map fun value => (e.1, value)).map ofMembers

theorem valueWith?_object (entries : Entries) :
    valueWith? embedded (depth + 1) (.object entries) =
      (Tree.object entries).named?.bind (objectWith? embedded depth) := by
  simp only [valueWith?, Tree.items?]
  cases (Tree.object entries).named? <;> rfl

theorem isEmbedding_squeezed (entries : List (String × Tree)) :
    isEmbedding (entries.map fun e => (e.1, e.2.squeezed)) = isEmbedding entries := by
  cases entries <;> rfl

theorem embeddedText?_squeezed (entries : List (String × Tree)) :
    embeddedText? (entries.map fun e => (e.1, e.2.squeezed)) = embeddedText? entries := by
  match entries with
  | [] => rfl
  | [(_, .atom _)] => rfl
  | [(_, .emptyArray _)] | [(_, .array _)] | [(_, .emptyObject _)] | [(_, .object _)] => rfl
  | _ :: _ :: _ => simp [embeddedText?]

theorem valueWith?_squeezed (t : Tree) :
    valueWith? embedded depth t.squeezed = valueWith? embedded depth t := by
  induction depth generalizing t with
  | zero => cases t <;> rfl
  | succ depth ih =>
    cases t with
    | atom | emptyArray | emptyObject => rfl
    | array items =>
      have hsame : valueWith? embedded depth ∘ Tree.squeezed = valueWith? embedded depth :=
        funext ih
      rw [Tree.squeezed, valueWith?_array, valueWith?_array, items.toList_squeezed, List.mapM_map,
        hsame]
    | object entries =>
      have hnamed := Tree.named?_squeezed (.object entries)
      rw [Tree.squeezed] at hnamed ⊢
      rw [valueWith?_object, valueWith?_object, hnamed, Option.bind_map]
      congr 1
      funext named
      rw [Function.comp, objectWith?, objectWith?, isEmbedding_squeezed, embeddedText?_squeezed,
        List.mapM_map]
      simp only [Function.comp_def, ih]

theorem membersOfTree?_squeezed (t : Tree) :
    membersOfTree? depth t.squeezed = membersOfTree? depth t := by
  cases depth with
  | zero => rfl
  | succ depth =>
    simp only [membersOfTree?, t.named?_squeezed]
    cases t.named? with
    | none => rfl
    | some entries =>
      simp only [Option.map_some, List.mapM_map, Function.comp_def, ofTree?, valueWith?_squeezed]

end Values

end DocumentSearch.Json
