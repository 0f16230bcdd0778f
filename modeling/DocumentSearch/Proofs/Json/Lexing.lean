import DocumentSearch.Json.Token

/-!
# Reading tokens back

The tokens of a text are read back just as they are spelled, wherever they can be told apart: only
a number runs on into what follows it, so it is enough that no two atoms stand side by side.
-/

namespace DocumentSearch.Json

open Utf8 (Symbol)

/-! ### What stands ahead -/

/-- If a character stands at the front of `s`, it satisfies `p`. -/
def Ahead (p : Char → Prop) : List Symbol → Prop
  | .char c :: _ => p c
  | _ => True

def EndsDigits (c : Char) : Prop := Digit.ofChar? c = none

/-- A character that no number goes on with. -/
def EndsNumeral (c : Char) : Prop := EndsDigits c ∧ c ≠ '.' ∧ c ≠ 'e' ∧ c ≠ 'E'

theorem Ahead.mono {p q : Char → Prop} {s : List Symbol} (h : Ahead p s)
    (hpq : ∀ c, p c → q c) : Ahead q s := by
  match s with
  | [] => trivial
  | .stray _ :: _ => trivial
  | .char c :: _ => exact hpq c h

theorem chars_append (a b : List Char) : chars (a ++ b) = chars a ++ chars b := List.map_append

theorem chars_nil : chars [] = [] := rfl

theorem chars_cons (c : Char) (cs : List Char) : chars (c :: cs) = .char c :: chars cs := rfl

theorem skip?_self (c : Char) (s : List Symbol) : skip? c (.char c :: s) = some s := if_pos rfl

theorem skip?_eq_none {c : Char} {s : List Symbol} (h : Ahead (· ≠ c) s) : skip? c s = none := by
  match s with
  | [] => rfl
  | .stray _ :: _ => rfl
  | .char d :: _ => exact if_neg h

/-! ### Digits -/

theorem Digit.ofChar?_char (d : Digit) : Digit.ofChar? d.char = some d := by
  revert d
  decide

theorem Digit.char_ne (d : Digit) :
    d.char ≠ '-' ∧ d.char ≠ '+' ∧ d.char ≠ '.' ∧ d.char ≠ 'e' ∧ d.char ≠ 'E' := by
  revert d
  decide

theorem digitsFrom_text (ds : List Digit) {rest : List Symbol} (h : Ahead EndsDigits rest)
    (done : List Digit) :
    digitsFrom done (chars (ds.map Digit.char) ++ rest) = (done.reverse ++ ds, rest) := by
  induction ds generalizing done with
  | nil =>
    rw [List.append_nil]
    match rest with
    | [] => rfl
    | .stray _ :: _ => rfl
    | .char c :: _ =>
      have hc : Digit.ofChar? c = none := h
      simp [chars, digitsFrom, hc]
  | cons d ds ih =>
    rw [List.map_cons, chars_cons, List.cons_append, digitsFrom, Digit.ofChar?_char]
    simp only [ih (d :: done), List.reverse_cons, List.append_assoc, List.singleton_append]

theorem digits?_text (lead : Digit) (more : List Digit) {rest : List Symbol}
    (h : Ahead EndsDigits rest) :
    digits? (chars (digitsText lead more) ++ rest) = some (lead, more, rest) := by
  rw [digits?, digitsText, digitsFrom_text (lead :: more) h []]
  rfl

/-! ### Numbers -/

def fractionText : Option (Digit × List Digit) → List Char
  | none => []
  | some (lead, more) => '.' :: digitsText lead more

def exponentText : Option Exponent → List Char
  | none => []
  | some e => e.text

theorem Numeral.text_eq (n : Numeral) :
    n.text = (if n.negative then ['-'] else []) ++ (digitsText n.lead n.more ++
      (fractionText n.fraction ++ exponentText n.exponent)) := by
  obtain ⟨negative, lead, more, fraction, exponent, canonical⟩ := n
  cases fraction <;> cases exponent <;>
    simp [Numeral.text, fractionText, exponentText, List.append_assoc]

theorem fraction?_text (fraction : Option (Digit × List Digit)) {rest : List Symbol}
    (h : Ahead (fun c => EndsDigits c ∧ c ≠ '.') rest) :
    fraction? (chars (fractionText fraction) ++ rest) = some (fraction, rest) := by
  cases fraction with
  | none =>
    have hpoint : skip? '.' rest = none := skip?_eq_none (h.mono fun _ hc => hc.2)
    simp [fractionText, chars, fraction?, hpoint]
  | some digits =>
    obtain ⟨lead, more⟩ := digits
    have hdigits := digits?_text lead more (h.mono fun _ hc => hc.1)
    rw [fractionText, chars_cons, List.cons_append, fraction?, skip?_self]
    simp only [hdigits]

theorem sign?_text (sign : Option Sign) (lead : Digit) (s : List Symbol) :
    sign? (chars (sign.map Sign.char).toList ++ .char lead.char :: s) =
      (sign, .char lead.char :: s) := by
  obtain ⟨hminus, hplus, -⟩ := lead.char_ne
  match sign with
  | none => simp [chars, sign?, skip?, hminus, hplus]
  | some .plus => rfl
  | some .minus => rfl

theorem exponentTail?_text (e : Exponent) {rest : List Symbol} (h : Ahead EndsDigits rest) :
    exponentTail? e.capital (chars ((e.sign.map Sign.char).toList ++ digitsText e.lead e.more) ++
      rest) = some (some e, rest) := by
  have hsign := sign?_text e.sign e.lead (chars (e.more.map Digit.char) ++ rest)
  have hdigits := digits?_text e.lead e.more h
  rw [digitsText, List.map_cons, chars_cons, List.cons_append] at hdigits
  rw [digitsText, List.map_cons, chars_append, chars_cons, List.append_assoc, List.cons_append,
    exponentTail?, hsign]
  simp only [hdigits]

theorem exponent?_text (exponent : Option Exponent) {rest : List Symbol}
    (h : Ahead EndsNumeral rest) :
    exponent? (chars (exponentText exponent) ++ rest) = some (exponent, rest) := by
  cases exponent with
  | none =>
    have hsmall : skip? 'e' rest = none := skip?_eq_none (h.mono fun _ hc => hc.2.2.1)
    have hlarge : skip? 'E' rest = none := skip?_eq_none (h.mono fun _ hc => hc.2.2.2)
    simp [exponentText, chars, exponent?, hsmall, hlarge]
  | some e =>
    have htail := exponentTail?_text e (h.mono fun _ hc => hc.1)
    rw [exponentText, Exponent.text, List.cons_append, chars_cons, List.cons_append, exponent?]
    cases hcapital : e.capital with
    | false =>
      rw [hcapital] at htail
      rw [if_neg Bool.false_ne_true, skip?_self]
      exact htail
    | true =>
      have hsmall : ∀ s, skip? 'e' (.char 'E' :: s) = none := fun _ => rfl
      rw [hcapital] at htail
      rw [if_pos rfl, hsmall, skip?_self]
      exact htail

/-- An exponent begins with its letter, which ends a fraction. -/
theorem ahead_exponentText (exponent : Option Exponent) {rest : List Symbol}
    (h : Ahead EndsNumeral rest) :
    Ahead (fun c => EndsDigits c ∧ c ≠ '.') (chars (exponentText exponent) ++ rest) := by
  cases exponent with
  | none => exact h.mono fun _ hc => ⟨hc.1, hc.2.1⟩
  | some e =>
    have hletter : ∀ c, c = 'e' ∨ c = 'E' → EndsDigits c ∧ c ≠ '.' := by
      rintro c (rfl | rfl) <;> exact ⟨rfl, by decide⟩
    apply hletter
    cases e.capital
    · exact .inl rfl
    · exact .inr rfl

theorem ahead_fractionText (fraction : Option (Digit × List Digit)) {rest : List Symbol}
    (h : Ahead EndsDigits rest) : Ahead EndsDigits (chars (fractionText fraction) ++ rest) := by
  cases fraction with
  | none => exact h
  | some _ => exact (by decide : Digit.ofChar? '.' = none)

theorem numeral?_text (n : Numeral) {rest : List Symbol} (h : Ahead EndsNumeral rest) :
    numeral? (chars n.text ++ rest) = some (n, rest) := by
  obtain ⟨negative, lead, more, fraction, exponent, canonical⟩ := n
  have hexponent := exponent?_text exponent h
  have hafter := ahead_exponentText exponent h
  have hfraction := fraction?_text fraction hafter
  have hdigits := digits?_text lead more
    (ahead_fractionText fraction (hafter.mono fun _ hc => hc.1))
  have hminus : skip? '-' (chars (digitsText lead more) ++ (chars (fractionText fraction) ++
      (chars (exponentText exponent) ++ rest))) = none := skip?_eq_none lead.char_ne.1
  rw [Numeral.text_eq]
  simp only [chars_append, List.append_assoc]
  cases negative with
  | true =>
    simp only [if_true, chars_cons, List.cons_append, numeral?, skip?_self]
    simp only [chars_nil, List.nil_append, hdigits, hfraction, hexponent, Option.bind_eq_bind,
      Option.bind_some, dif_pos canonical]
  | false =>
    simp only [Bool.false_eq_true, if_false, chars_nil, List.nil_append, numeral?, hminus]
    simp only [hdigits, hfraction, hexponent, Option.bind_eq_bind, Option.bind_some,
      dif_pos canonical]

/-! ### Strings -/

theorem hexDigit?_val (d : HexDigit) : hexDigit? d.val = some d := dif_pos d.property

theorem quotedFrom_text (q : Quoted) (rest : List Symbol) (done : List Piece) :
    quotedFrom done (q.flatMap Piece.text ++ .char '"' :: rest) = some (done.reverse ++ q, rest) := by
  induction q generalizing done with
  | nil => simp [quotedFrom.eq_def]
  | cons p q ih =>
    have hstep : quotedFrom done (p.text ++ (q.flatMap Piece.text ++ .char '"' :: rest)) =
        quotedFrom (p :: done) (q.flatMap Piece.text ++ .char '"' :: rest) := by
      generalize q.flatMap Piece.text ++ .char '"' :: rest = s
      cases p with
      | plain c =>
        obtain ⟨-, hquote, hslash⟩ := c.property
        rw [Piece.text, List.singleton_append, quotedFrom.eq_def]
        simp only [hquote, hslash, if_false, dif_pos c.property]
      | stray bytes => simp [Piece.text, quotedFrom]
      | short e =>
        rw [Piece.text, quotedFrom.eq_def]
        simp [chars, e.property]
      | code a b c d =>
        have hu : (shortEscape? 'u').isSome = false := by decide
        simp [Piece.text, chars, quotedFrom, hu, hexDigit?_val]
    rw [List.flatMap_cons, List.append_assoc, hstep, ih (p :: done), List.reverse_cons,
      List.append_assoc]
    rfl

/-! ### Tokens -/

/-- A number is recognized by its first character. -/
theorem token?_numeral {c : Char} (h : c = '-' ∨ ∃ d : Digit, c = d.char) (rest : List Symbol) :
    token? c rest =
      (numeral? (.char c :: rest)).map fun (n, rest) => (.atom (.number n), rest) := by
  have hother : ¬(c = ' ' ∨ c = '\n' ∨ c = '\t' ∨ c = '\r') ∧ c ≠ '[' ∧ c ≠ ']' ∧ c ≠ '\x7b' ∧
      c ≠ '\x7d' ∧ c ≠ ',' ∧ c ≠ ':' ∧ c ≠ '"' ∧ c ≠ 'n' ∧ c ≠ 't' ∧ c ≠ 'f' := by
    obtain rfl | ⟨d, rfl⟩ := h
    · decide
    · revert d
      decide
  simp only [token?, hother, if_false, ↓reduceDIte]

theorem Numeral.text_eq_cons (n : Numeral) :
    ∃ c more, n.text = c :: more ∧ (c = '-' ∨ ∃ d : Digit, c = d.char) := by
  rw [Numeral.text_eq]
  cases n.negative with
  | true => exact ⟨'-', _, rfl, .inl rfl⟩
  | false => exact ⟨n.lead.char, _, rfl, .inr ⟨n.lead, rfl⟩⟩

def Token.isAtom : Token → Bool
  | .atom _ => true
  | _ => false

/-- Every token is read back, an atom when no number goes on after it. -/
theorem token?_text (t : Token) {rest : List Symbol} (h : t.isAtom → Ahead EndsNumeral rest) :
    ∃ c more, t.text ++ rest = .char c :: more ∧ token? c more = some (t, rest) := by
  match t with
  | .blank c => exact ⟨c.val, rest, rfl, dif_pos c.property⟩
  | .openArray => exact ⟨'[', rest, rfl, rfl⟩
  | .closeArray => exact ⟨']', rest, rfl, rfl⟩
  | .openObject => exact ⟨'\x7b', rest, rfl, rfl⟩
  | .closeObject => exact ⟨'\x7d', rest, rfl, rfl⟩
  | .comma => exact ⟨',', rest, rfl, rfl⟩
  | .colon => exact ⟨':', rest, rfl, rfl⟩
  | .atom .null => exact ⟨'n', chars ['u', 'l', 'l'] ++ rest, rfl, rfl⟩
  | .atom (.bool true) => exact ⟨'t', chars ['r', 'u', 'e'] ++ rest, rfl, rfl⟩
  | .atom (.bool false) => exact ⟨'f', chars ['a', 'l', 's', 'e'] ++ rest, rfl, rfl⟩
  | .atom (.string q) =>
    refine ⟨'"', q.flatMap Piece.text ++ .char '"' :: rest, ?_, ?_⟩
    · simp [Token.text, Atom.text, Quoted.text]
    · have hread := quotedFrom_text q rest []
      rw [List.reverse_nil, List.nil_append] at hread
      show (quotedFrom [] _).map _ = _
      rw [hread]
      rfl
  | .atom (.number n) =>
    obtain ⟨c, more, htext, hc⟩ := n.text_eq_cons
    have hread := numeral?_text n (h rfl)
    rw [htext, chars_cons, List.cons_append] at hread
    refine ⟨c, chars more ++ rest, ?_, ?_⟩
    · rw [Token.text, Atom.text, htext, chars_cons, List.cons_append]
    · rw [token?_numeral hc, hread]
      rfl

theorem Token.text_length_pos (t : Token) : 0 < t.text.length := by
  obtain ⟨c, more, htext, -⟩ := @token?_text t [] fun _ => trivial
  rw [List.append_nil] at htext
  rw [htext]
  exact Nat.succ_pos _

/-! ### Texts -/

def NoAtomAhead : List Token → Prop
  | .atom _ :: _ => False
  | _ => True

/-- No two atoms stand side by side. -/
def Separated : List Token → Prop
  | [] => True
  | .atom _ :: rest => NoAtomAhead rest ∧ Separated rest
  | _ :: rest => Separated rest

/-- Only an atom can begin with what a number goes on with. -/
theorem ahead_of_noAtomAhead {tokens : List Token} (h : NoAtomAhead tokens) :
    Ahead EndsNumeral (tokens.flatMap Token.text) := by
  match tokens with
  | [] => trivial
  | .blank c :: _ =>
    show EndsNumeral c.val
    rcases c.property with hc | hc | hc | hc <;> rw [hc] <;>
      exact ⟨rfl, by decide, by decide, by decide⟩
  | .openArray :: _ | .closeArray :: _ | .openObject :: _ | .closeObject :: _ | .comma :: _
  | .colon :: _ => exact ⟨rfl, by decide, by decide, by decide⟩

theorem Separated.of_cons {t : Token} {tokens : List Token} (h : Separated (t :: tokens)) :
    (t.isAtom → NoAtomAhead tokens) ∧ Separated tokens := by
  cases t with
  | atom a => exact ⟨fun _ => h.1, h.2⟩
  | _ => exact ⟨fun hatom => absurd hatom Bool.false_ne_true, h⟩

theorem tokensFrom_text {tokens : List Token} (h : Separated tokens) {steps : Nat}
    (hsteps : (tokens.flatMap Token.text).length ≤ steps) (done : List Token) :
    tokensFrom steps done (tokens.flatMap Token.text) = some (done.reverse ++ tokens) := by
  induction tokens generalizing steps done with
  | nil => cases steps <;> simp [tokensFrom]
  | cons t tokens ih =>
    obtain ⟨hahead, hrest⟩ := h.of_cons
    obtain ⟨c, more, htext, hread⟩ :=
      token?_text t fun hatom => ahead_of_noAtomAhead (hahead hatom)
    rw [List.flatMap_cons] at hsteps ⊢
    have hlength : t.text.length + (tokens.flatMap Token.text).length = more.length + 1 := by
      rw [← List.length_append, htext, List.length_cons]
    have hpos := t.text_length_pos
    rw [htext, List.length_cons] at hsteps
    rw [htext]
    obtain ⟨steps, rfl⟩ : ∃ n, steps = n + 1 := ⟨steps - 1, by omega⟩
    have hfits : (tokens.flatMap Token.text).length ≤ steps := by omega
    rw [tokensFrom, hread]
    simp only [ih hrest hfits (t :: done), List.reverse_cons, List.append_assoc,
      List.singleton_append]

theorem tokens?_text {tokens : List Token} (h : Separated tokens) :
    tokens? (tokens.flatMap Token.text) = some tokens :=
  tokensFrom_text h (Nat.le_refl _) []

end DocumentSearch.Json
