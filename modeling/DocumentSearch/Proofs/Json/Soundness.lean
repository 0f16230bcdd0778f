import DocumentSearch.Proofs.Json.Written

/-!
# Reading loses nothing

What is read from a text spells that text, symbol for symbol: neither the reader of tokens nor the
machine that builds trees skips, adds or changes anything. With the converse, that every tree is
read back from its text, the texts that can be read are just the texts of trees.
-/

namespace DocumentSearch.Json

open Utf8 (Symbol)

/-! ### Digits and signs -/

theorem Digit.char_of_ofChar? {c : Char} {d : Digit} (h : ofChar? c = some d) : d.char = c := by
  rw [ofChar?] at h
  split at h
  next hrange =>
    obtain rfl := Option.some.inj h
    have hcode : 48 + (c.toNat - 48) = c.toNat := by omega
    rw [Digit.char, hcode, Char.ofNat_toNat]
  next => cases h

theorem text_digitsFrom (done : List Digit) (s : List Symbol) :
    chars ((digitsFrom done s).1.map Digit.char) ++ (digitsFrom done s).2 =
      chars (done.reverse.map Digit.char) ++ s := by
  fun_induction digitsFrom done s with
  | case1 done c rest d hd ih =>
    rw [ih, List.reverse_cons, List.map_append, chars_append, List.append_assoc, List.map_singleton,
      Digit.char_of_ofChar? hd]
    rfl
  | case2 => rfl
  | case3 => rfl

section Numbers

variable {s rest : List Symbol}

theorem text_of_digits? {lead : Digit} {more : List Digit}
    (h : digits? s = some (lead, more, rest)) : chars (digitsText lead more) ++ rest = s := by
  have hall := text_digitsFrom [] s
  rw [digits?] at h
  split at h
  next lead' more' rest' hread =>
    cases h
    rw [hread] at hall
    exact hall
  next => cases h

theorem eq_of_skip? {c : Char} (h : skip? c s = some rest) : s = .char c :: rest := by
  unfold skip? at h
  split at h
  next d rest' =>
    split at h
    next hd =>
      cases h
      rw [hd]
    next => cases h
  next => cases h

theorem text_of_fraction? {fraction : Option (Digit × List Digit)}
    (h : fraction? s = some (fraction, rest)) : chars (fractionText fraction) ++ rest = s := by
  rw [fraction?] at h
  split at h
  next =>
    cases h
    rfl
  next after hpoint =>
    split at h
    next lead more rest' hdigits =>
      cases h
      rw [fractionText, chars_cons, List.cons_append, text_of_digits? hdigits, eq_of_skip? hpoint]
    next => cases h

theorem text_sign? (s : List Symbol) :
    chars ((sign? s).1.map Sign.char).toList ++ (sign? s).2 = s := by
  rw [sign?]
  split
  next rest hplus => exact (eq_of_skip? hplus).symm
  next =>
    split
    next rest hminus => exact (eq_of_skip? hminus).symm
    next => rfl

theorem text_of_exponentTail? {capital : Bool} {exponent : Option Exponent}
    (h : exponentTail? capital s = some (exponent, rest)) :
    chars (exponentText exponent) ++ rest = .char (if capital then 'E' else 'e') :: s := by
  have hsign := text_sign? s
  rw [exponentTail?] at h
  obtain ⟨sign, after⟩ := sign? s
  dsimp only at h hsign
  split at h
  next lead more rest' hdigits =>
    cases h
    rw [exponentText, Exponent.text, List.cons_append, chars_cons, List.cons_append, chars_append,
      List.append_assoc, text_of_digits? hdigits, hsign]
  next => cases h

theorem text_of_exponent? {exponent : Option Exponent}
    (h : exponent? s = some (exponent, rest)) : chars (exponentText exponent) ++ rest = s := by
  rw [exponent?] at h
  split at h
  next after hsmall => rw [text_of_exponentTail? h, eq_of_skip? hsmall]; rfl
  next =>
    split at h
    next after hlarge => rw [text_of_exponentTail? h, eq_of_skip? hlarge]; rfl
    next =>
      cases h
      rfl

theorem text_of_numeral? {n : Numeral} (h : numeral? s = some (n, rest)) :
    chars n.text ++ rest = s := by
  rw [numeral?] at h
  split at h
  next negative after hread =>
  have htext : chars (if negative then ['-'] else []) ++ after = s := by
    split at hread
    next after' hminus =>
      cases hread
      exact (eq_of_skip? hminus).symm
    next =>
      cases hread
      rfl
  simp only [Option.bind_eq_bind, Option.bind_eq_some_iff] at h
  obtain ⟨⟨lead, more, afterDigits⟩, hdigits, h⟩ := h
  split at h
  next canonical =>
    simp only [Option.bind_eq_some_iff] at h
    obtain ⟨⟨fraction, afterFraction⟩, hfraction, ⟨exponent, afterExponent⟩, hexponent, h⟩ := h
    cases h
    rw [Numeral.text_eq, chars_append, chars_append, chars_append, List.append_assoc,
      List.append_assoc, List.append_assoc, text_of_exponent? hexponent,
      text_of_fraction? hfraction, text_of_digits? hdigits, htext]
  next => cases h

end Numbers

/-! ### Strings and words -/

theorem val_of_hexDigit? {c : Char} {d : HexDigit} (h : hexDigit? c = some d) : d.val = c := by
  rw [hexDigit?] at h
  split at h
  next =>
    cases h
    rfl
  next => cases h

theorem text_of_quotedFrom {done : List Piece} {s rest : List Symbol} {q : Quoted}
    (h : quotedFrom done s = some (q, rest)) :
    q.flatMap Piece.text ++ .char '"' :: rest = done.reverse.flatMap Piece.text ++ s := by
  -- A piece that is read leaves the text of what has been read and what follows as it was.
  have hpiece (p : Piece) (done : List Piece) (s : List Symbol) :
      (p :: done).reverse.flatMap Piece.text ++ s =
        done.reverse.flatMap Piece.text ++ (p.text ++ s) := by
    simp
  fun_induction quotedFrom done s with
  | case1 => cases h
  | case2 done bytes rest' ih => rw [ih h, hpiece]; rfl
  | case3 =>
    cases h
    rfl
  | case4 done rest' e hshort hquote ih => rw [ih h, hpiece]; rfl
  | case5 done a b c d after a' b' c' d' hd hc hb ha _ _ ih =>
    rw [ih h, hpiece, Piece.text, val_of_hexDigit? ha, val_of_hexDigit? hb, val_of_hexDigit? hc,
      val_of_hexDigit? hd]
    rfl
  | case10 done c after _ _ hplain ih => rw [ih h, hpiece]; rfl
  | case6 | case7 | case8 | case9 | case11 => cases h

theorem eq_of_word? {word : List Char} {s rest : List Symbol} (h : word? word s = some rest) :
    s = chars word ++ rest := by
  induction word generalizing s with
  | nil => exact Option.some.inj h
  | cons c word ih =>
    rw [word?] at h
    split at h
    next after hskip => rw [eq_of_skip? hskip, ih h, chars_cons, List.cons_append]
    next => cases h

/-! ### Tokens -/

theorem text_of_token? {c : Char} {s rest : List Symbol} {t : Token}
    (h : token? c s = some (t, rest)) : t.text ++ rest = .char c :: s := by
  have hword {word : List Char} {a : Atom}
      (h : (word? word s).map (fun rest => (Token.atom a, rest)) = some (t, rest))
      (htext : a.text = .char c :: chars word) : t.text ++ rest = .char c :: s := by
    obtain ⟨after, hafter, h⟩ := Option.map_eq_some_iff.mp h
    cases h
    rw [Token.text, htext, List.cons_append, eq_of_word? hafter]
  by_cases hblank : c = ' ' ∨ c = '\n' ∨ c = '\t' ∨ c = '\r'
  · rw [token?, dif_pos hblank] at h
    cases h
    rfl
  rw [token?, dif_neg hblank] at h
  iterate 6
    split at h
    next hc =>
      cases h
      rw [hc]
      rfl
  split at h
  next hc =>
    obtain ⟨⟨q, after⟩, hread, h⟩ := Option.map_eq_some_iff.mp h
    cases h
    have htext := text_of_quotedFrom hread
    rw [List.reverse_nil, List.flatMap_nil, List.nil_append] at htext
    simp [Token.text, Atom.text, Quoted.text, htext, hc]
  split at h
  next hc => exact hword h (by rw [hc]; rfl)
  split at h
  next hc => exact hword h (by rw [hc]; rfl)
  split at h
  next hc => exact hword h (by rw [hc]; rfl)
  next =>
    obtain ⟨⟨n, after⟩, hread, h⟩ := Option.map_eq_some_iff.mp h
    cases h
    exact text_of_numeral? hread

theorem text_of_tokensFrom {steps : Nat} {done tokens : List Token} {s : List Symbol}
    (h : tokensFrom steps done s = some tokens) :
    tokens.flatMap Token.text = done.reverse.flatMap Token.text ++ s := by
  fun_induction tokensFrom steps done s with
  | case1 =>
    cases h
    exact (List.append_nil _).symm
  | case4 done steps c rest t rest' hread ih =>
    rw [ih h, ← text_of_token? hread]
    simp
  | case2 | case3 | case5 => cases h

/-- A text is what its tokens are spelled with, one after the other. -/
theorem text_of_tokens? {s : List Symbol} {tokens : List Token} (h : tokens? s = some tokens) :
    tokens.flatMap Token.text = s :=
  text_of_tokensFrom h

/-! ### What the machine has read -/

/-- The tokens of an element that has been read. -/
def Item.tokens (i : Item) : List Token :=
  Spaces.tokens i.before.reverse ++ (i.value.tokens ++ Spaces.tokens i.after.reverse)

/-- The tokens of a member that has been read, up to its value. -/
def nameTokens (before : Spaces) (name : Quoted) (afterName : Spaces) : List Token :=
  Spaces.tokens before.reverse ++ .atom (.string name) :: Spaces.tokens afterName.reverse

/-- The tokens of a member that has been read. -/
def Entry.tokens (e : Entry) : List Token :=
  nameTokens e.before e.name e.afterName ++ .colon ::
    (Spaces.tokens e.beforeValue.reverse ++ (e.value.tokens ++ Spaces.tokens e.after.reverse))

/-- The tokens of elements or members, the latest first, each with the comma after it. -/
def listed {α : Type} (tokens : α → List Token) (done : List α) : List Token :=
  done.reverse.flatMap fun x => tokens x ++ [.comma]

/-- The tokens that have been read inside one pair of brackets, from the opening one on, or outside
all. -/
def Frame.tokens : Frame → List Token
  | .start b => Spaces.tokens b.reverse
  | .finished b v a => Item.tokens ⟨b, v, a⟩
  | .arrayOpen s => .openArray :: Spaces.tokens s.reverse
  | .element done b => .openArray :: (listed Item.tokens done ++ Spaces.tokens b.reverse)
  | .afterElement done i => .openArray :: (listed Item.tokens done ++ i.tokens)
  | .objectOpen s => .openObject :: Spaces.tokens s.reverse
  | .name done b => .openObject :: (listed Entry.tokens done ++ Spaces.tokens b.reverse)
  | .colon done b k a => .openObject :: (listed Entry.tokens done ++ nameTokens b k a)
  | .member done b k a b' =>
    .openObject :: (listed Entry.tokens done ++
      (nameTokens b k a ++ .colon :: Spaces.tokens b'.reverse))
  | .afterMember done e => .openObject :: (listed Entry.tokens done ++ e.tokens)

/-- The tokens that have been read. -/
def Reading.tokens (r : Reading) : List Token :=
  r.around.reverse.flatMap Frame.tokens ++ r.top.tokens

@[simp] theorem tokens_append (s s' : Spaces) :
    Spaces.tokens (s ++ s') = Spaces.tokens s ++ Spaces.tokens s' := List.map_append

@[simp] theorem tokens_singleton (c : Blank) : Spaces.tokens [c] = [.blank c] := rfl

@[simp] theorem listed_nil {α : Type} (tokens : α → List Token) : listed tokens [] = [] := rfl

@[simp] theorem listed_cons {α : Type} (tokens : α → List Token) (x : α) (done : List α) :
    listed tokens (x :: done) = listed tokens done ++ (tokens x ++ [.comma]) := by
  simp [listed]

/-! ### One frame -/

namespace Frame

variable {f f' : Frame} {v : Tree}

theorem tokens_space (c : Blank) (f : Frame) : (f.space c).tokens = f.tokens ++ [.blank c] := by
  cases f <;> simp [space, tokens, Item.tokens, Entry.tokens, nameTokens]

theorem tokens_of_put (h : f.put v = some f') : f'.tokens = f.tokens ++ v.tokens := by
  cases f with
  | start | arrayOpen | element | member =>
    obtain rfl := Option.some.inj h
    simp [tokens, Item.tokens, Entry.tokens, Spaces.tokens]
  | _ => cases h

theorem tokens_of_putName {k : Quoted} (h : f.putName k = some f') :
    f'.tokens = f.tokens ++ [.atom (.string k)] := by
  cases f with
  | objectOpen | name =>
    obtain rfl := Option.some.inj h
    simp [tokens, nameTokens, Spaces.tokens]
  | _ => cases h

end Frame

theorem tokensThen_after_items (done : List Item) (items : Items) (rest : List Token) :
    (items.after done).tokensThen rest = listed Item.tokens done ++ items.tokensThen rest := by
  induction done generalizing items with
  | nil => rfl
  | cons i done ih =>
    have hcons : items.after (i :: done) =
        (Items.cons i.before.reverse i.value i.after.reverse items).after done := rfl
    rw [hcons, ih]
    simp [Items.tokensThen, Item.tokens, Tree.tokensThen_eq]

theorem tokensThen_after_entries (done : List Entry) (entries : Entries) (rest : List Token) :
    (entries.after done).tokensThen rest =
      listed Entry.tokens done ++ entries.tokensThen rest := by
  induction done generalizing entries with
  | nil => rfl
  | cons e done ih =>
    have hcons : entries.after (e :: done) =
        (Entries.cons e.before.reverse e.name e.afterName.reverse e.beforeValue.reverse e.value
          e.after.reverse entries).after done := rfl
    rw [hcons, ih]
    simp [Entries.tokensThen, Entry.tokens, nameTokens, Tree.tokensThen_eq]

namespace Frame

variable {f : Frame} {v : Tree}

theorem tokens_of_closeArray (h : f.closeArray = some v) :
    v.tokens = f.tokens ++ [.closeArray] := by
  cases f with
  | arrayOpen s =>
    obtain rfl := Option.some.inj h
    simp [tokens, Tree.tokens, Tree.tokensThen]
  | afterElement done i =>
    obtain rfl := Option.some.inj h
    have hclose : Items.close i done =
        (Items.last i.before.reverse i.value i.after.reverse).after done := rfl
    rw [Tree.tokens, Tree.tokensThen, hclose, tokensThen_after_items]
    simp [tokens, Items.tokensThen, Item.tokens, Tree.tokensThen_eq]
  | _ => cases h

theorem tokens_of_closeObject (h : f.closeObject = some v) :
    v.tokens = f.tokens ++ [.closeObject] := by
  cases f with
  | objectOpen s =>
    obtain rfl := Option.some.inj h
    simp [tokens, Tree.tokens, Tree.tokensThen]
  | afterMember done e =>
    obtain rfl := Option.some.inj h
    have hclose : Entries.close e done = (Entries.last e.before.reverse e.name e.afterName.reverse
        e.beforeValue.reverse e.value e.after.reverse).after done := rfl
    rw [Tree.tokens, Tree.tokensThen, hclose, tokensThen_after_entries]
    simp [tokens, Entries.tokensThen, Entry.tokens, nameTokens, Tree.tokensThen_eq]
  | _ => cases h

end Frame

/-! ### The machine -/

namespace Reading

variable {r r' : Reading}

/-- What stands on top is replaced by a frame with more tokens. -/
theorem tokens_top {f : Frame} {more : List Token} (h : f.tokens = r.top.tokens ++ more) :
    Reading.tokens { r with top := f } = r.tokens ++ more := by
  rw [tokens, tokens, h, List.append_assoc]

theorem tokens_of_close {top : Frame} {around : List Frame} {value : Option Tree} {t : Token}
    (hvalue : ∀ v, value = some v → v.tokens = top.tokens ++ [t])
    (h : close value around = some r') : r'.tokens = tokens ⟨top, around⟩ ++ [t] := by
  unfold close at h
  split at h
  next v f around =>
    obtain ⟨f', hput, h⟩ := Option.map_eq_some_iff.mp h
    cases h
    simp [tokens, Frame.tokens_of_put hput, hvalue v rfl]
  next => cases h

/-- One step reads one token. -/
theorem tokens_of_step {t : Token} (h : r.step t = some r') : r'.tokens = r.tokens ++ [t] := by
  cases t with
  | blank c =>
    obtain rfl := Option.some.inj h
    exact tokens_top (r.top.tokens_space c)
  | atom a =>
    rw [step.eq_def] at h
    dsimp only at h
    split at h
    next f hput =>
      cases h
      exact tokens_top (Frame.tokens_of_put hput)
    next =>
      split at h
      next k =>
        obtain ⟨f, hname, h⟩ := Option.map_eq_some_iff.mp h
        cases h
        exact tokens_top (Frame.tokens_of_putName hname)
      next => cases h
  | openArray | openObject =>
    rw [step] at h
    split at h
    next =>
      cases h
      simp [tokens, Frame.tokens, Spaces.tokens]
    next => cases h
  | closeArray => exact tokens_of_close (fun v => Frame.tokens_of_closeArray) h
  | closeObject => exact tokens_of_close (fun v => Frame.tokens_of_closeObject) h
  | comma =>
    rw [step] at h
    split at h
    next done i htop =>
      cases h
      exact tokens_top (by simp [htop, Frame.tokens, Spaces.tokens])
    next done e htop =>
      cases h
      exact tokens_top (by simp [htop, Frame.tokens, Spaces.tokens])
    next => cases h
  | colon =>
    rw [step] at h
    split at h
    next done b k a htop =>
      cases h
      exact tokens_top (by simp [htop, Frame.tokens, Spaces.tokens])
    next => cases h

theorem tokens_of_run {tokens : List Token} (h : r.run tokens = some r') :
    r'.tokens = r.tokens ++ tokens := by
  induction tokens generalizing r with
  | nil =>
    obtain rfl := Option.some.inj h
    exact (List.append_nil _).symm
  | cons t rest ih =>
    rw [run] at h
    split at h
    next moved hstep => rw [ih h, tokens_of_step hstep, List.append_assoc, List.singleton_append]
    next => cases h

theorem tokens_of_result? {p : Padded} (h : r.result? = some p) : p.tokens = r.tokens := by
  unfold result? at h
  split at h
  next b v a =>
    cases h
    simp [Padded.tokens, tokens, Frame.tokens, Item.tokens, Tree.tokensThen_eq]
  next => cases h

end Reading

/-! ### Texts -/

theorem Padded.tokens_of_ofTokens? {tokens : List Token} {p : Padded}
    (h : ofTokens? tokens = some p) : p.tokens = tokens := by
  rw [ofTokens?] at h
  split at h
  next r hrun => rw [Reading.tokens_of_result? h, Reading.tokens_of_run hrun]; rfl
  next => cases h

/-- The texts that can be read are the texts of trees, and each is read as the tree it is spelled
by. -/
theorem Padded.parse?_eq_some_iff {s : List Symbol} {p : Padded} :
    parse? s = some p ↔ p.text = s := by
  constructor
  · intro h
    rw [parse?] at h
    split at h
    next tokens hread => rw [text, tokens_of_ofTokens? h, text_of_tokens? hread]
    next => cases h
  · rintro rfl
    exact p.parse?_text

end DocumentSearch.Json
