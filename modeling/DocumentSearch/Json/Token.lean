import DocumentSearch.Text.Utf8

/-!
# Tokens of JSON text

The smallest pieces of JSON text, each kept just as it is spelled: `text` gives back the symbols
that a token was read from. The types admit only well-formed tokens, so a list of tokens is always
the spelling of some text.

Reading is lenient about what it does not need to understand. Inside a string any escape of the
right shape will do, and so will bytes that are not UTF-8; a number may be of any size. Whether
such a token has a value is asked when the value is wanted.
-/

namespace DocumentSearch.Json

open Utf8 (Symbol)

/-- White space between tokens. -/
abbrev Blank := { c : Char // c = ' ' ∨ c = '\n' ∨ c = '\t' ∨ c = '\r' }

abbrev Digit := Fin 10

def Digit.zero : Digit := ⟨0, by decide⟩

def Digit.char (d : Digit) : Char := Char.ofNat (48 + d.val)

def Digit.ofChar? (c : Char) : Option Digit :=
  if h : 48 ≤ c.toNat ∧ c.toNat < 58 then some ⟨c.toNat - 48, by omega⟩ else none

/-- The number that a hexadecimal digit stands for. -/
def hexValue? (c : Char) : Option Nat :=
  let n := c.toNat
  if 48 ≤ n ∧ n < 58 then some (n - 48)
  else if 97 ≤ n ∧ n < 103 then some (n - 87)
  else if 65 ≤ n ∧ n < 71 then some (n - 55)
  else none

abbrev HexDigit := { c : Char // (hexValue? c).isSome }

def HexDigit.value (d : HexDigit) : Nat := (hexValue? d.val).get d.property

/-- The character that a backslash and a letter stand for. -/
def shortEscape? (c : Char) : Option Char :=
  if c = '"' ∨ c = '\\' ∨ c = '/' then some c
  else if c = 'b' then some '\x08'
  else if c = 'f' then some '\x0C'
  else if c = 'n' then some '\n'
  else if c = 'r' then some '\r'
  else if c = 't' then some '\t'
  else none

abbrev ShortEscape := { c : Char // (shortEscape? c).isSome }

def ShortEscape.char (e : ShortEscape) : Char := (shortEscape? e.val).get e.property

/-- A character that stands for itself in a string. -/
abbrev Plain := { c : Char // 0x20 ≤ c.toNat ∧ c ≠ '"' ∧ c ≠ '\\' }

/-- What a string is spelled with. -/
inductive Piece where
  | plain (c : Plain)
  | stray (bytes : List UInt8)
  | short (e : ShortEscape)
  | code (a b c d : HexDigit)

/-- The spelling of a string, without its quotes. -/
abbrev Quoted := List Piece

inductive Sign where
  | plus
  | minus
  deriving DecidableEq, Repr

structure Exponent where
  capital : Bool
  sign : Option Sign
  lead : Digit
  more : List Digit
  deriving DecidableEq, Repr

/-- The spelling of a number. -/
structure Numeral where
  negative : Bool
  lead : Digit
  more : List Digit
  fraction : Option (Digit × List Digit)
  exponent : Option Exponent
  /-- A number begins with a zero only when that is all there is before the point. -/
  canonical : lead.val = 0 → more = []

/-- A value that holds no other. -/
inductive Atom where
  | null
  | bool (b : Bool)
  | number (n : Numeral)
  | string (q : Quoted)

inductive Token where
  | blank (c : Blank)
  | atom (a : Atom)
  | openArray
  | closeArray
  | openObject
  | closeObject
  | comma
  | colon

/-! ### What a token is spelled with -/

def chars (cs : List Char) : List Symbol := cs.map Symbol.char

def Piece.text : Piece → List Symbol
  | .plain c => [.char c.val]
  | .stray bytes => [.stray bytes]
  | .short e => chars ['\\', e.val]
  | .code a b c d => chars ['\\', 'u', a.val, b.val, c.val, d.val]

def Quoted.text (q : Quoted) : List Symbol :=
  .char '"' :: (q.flatMap Piece.text ++ [.char '"'])

def digitsText (lead : Digit) (more : List Digit) : List Char := (lead :: more).map Digit.char

def Sign.char : Sign → Char
  | .plus => '+'
  | .minus => '-'

def Exponent.text (e : Exponent) : List Char :=
  (if e.capital then 'E' else 'e') :: (e.sign.map Sign.char).toList ++ digitsText e.lead e.more

def Numeral.text (n : Numeral) : List Char :=
  (if n.negative then ['-'] else []) ++ digitsText n.lead n.more ++
    (match n.fraction with
      | none => []
      | some (lead, more) => '.' :: digitsText lead more) ++
    (match n.exponent with
      | none => []
      | some e => e.text)

def Atom.text : Atom → List Symbol
  | .null => chars ['n', 'u', 'l', 'l']
  | .bool true => chars ['t', 'r', 'u', 'e']
  | .bool false => chars ['f', 'a', 'l', 's', 'e']
  | .number n => chars n.text
  | .string q => Quoted.text q

def Token.text : Token → List Symbol
  | .blank c => [.char c.val]
  | .atom a => a.text
  | .openArray => [.char '[']
  | .closeArray => [.char ']']
  | .openObject => [.char '\x7b']
  | .closeObject => [.char '\x7d']
  | .comma => [.char ',']
  | .colon => [.char ':']

/-! ### Reading tokens -/

/-- The digits at the front, after `done`, the latest first; and what follows them. -/
def digitsFrom (done : List Digit) : List Symbol → List Digit × List Symbol
  | .char c :: rest =>
    match Digit.ofChar? c with
    | some d => digitsFrom (d :: done) rest
    | none => (done.reverse, .char c :: rest)
  | rest => (done.reverse, rest)

/-- At least one digit, all there are, and what follows them. -/
def digits? (s : List Symbol) : Option (Digit × List Digit × List Symbol) :=
  match digitsFrom [] s with
  | (lead :: more, rest) => some (lead, more, rest)
  | ([], _) => none

/-- Takes `c` from the front if it stands there. -/
def skip? (c : Char) : List Symbol → Option (List Symbol)
  | .char d :: rest => if d = c then some rest else none
  | _ => none

/-- The fraction at the front, if there is a point. -/
def fraction? (s : List Symbol) : Option (Option (Digit × List Digit) × List Symbol) :=
  match skip? '.' s with
  | none => some (none, s)
  | some s =>
    match digits? s with
    | some (lead, more, rest) => some (some (lead, more), rest)
    | none => none

/-- The sign at the front, if there is one. -/
def sign? (s : List Symbol) : Option Sign × List Symbol :=
  match skip? '+' s with
  | some rest => (some .plus, rest)
  | none =>
    match skip? '-' s with
    | some rest => (some .minus, rest)
    | none => (none, s)

/-- The rest of an exponent, after its letter. -/
def exponentTail? (capital : Bool) (s : List Symbol) : Option (Option Exponent × List Symbol) :=
  let (sign, s) := sign? s
  match digits? s with
  | some (lead, more, rest) => some (some ⟨capital, sign, lead, more⟩, rest)
  | none => none

/-- The exponent at the front, if there is one. -/
def exponent? (s : List Symbol) : Option (Option Exponent × List Symbol) :=
  match skip? 'e' s with
  | some s => exponentTail? false s
  | none =>
    match skip? 'E' s with
    | some s => exponentTail? true s
    | none => some (none, s)

/-- The number at the front, and what follows it. -/
def numeral? (s : List Symbol) : Option (Numeral × List Symbol) := do
  let (negative, s) :=
    match skip? '-' s with
    | some s => (true, s)
    | none => (false, s)
  let (lead, more, s) ← digits? s
  if canonical : lead.val = 0 → more = [] then
    let (fraction, s) ← fraction? s
    let (exponent, s) ← exponent? s
    some (⟨negative, lead, more, fraction, exponent, canonical⟩, s)
  else none

def hexDigit? (c : Char) : Option HexDigit :=
  if h : (hexValue? c).isSome then some ⟨c, h⟩ else none

/-- The rest of a string whose opening quote and the pieces `done`, the latest first, have been
read; and what follows the closing quote. -/
def quotedFrom (done : List Piece) : List Symbol → Option (Quoted × List Symbol)
  | [] => none
  | .stray bytes :: rest => quotedFrom (.stray bytes :: done) rest
  | .char c :: rest =>
    if c = '"' then some (done.reverse, rest)
    else if c = '\\' then
      match rest with
      | .char e :: rest =>
        if h : (shortEscape? e).isSome then quotedFrom (.short ⟨e, h⟩ :: done) rest
        else if e = 'u' then
          match rest with
          | .char a :: .char b :: .char c :: .char d :: rest =>
            match hexDigit? a, hexDigit? b, hexDigit? c, hexDigit? d with
            | some a, some b, some c, some d => quotedFrom (.code a b c d :: done) rest
            | _, _, _, _ => none
          | _ => none
        else none
      | _ => none
    else if h : 0x20 ≤ c.toNat ∧ c ≠ '"' ∧ c ≠ '\\' then
      quotedFrom (.plain ⟨c, h⟩ :: done) rest
    else none

/-- Takes the characters `word` from the front. -/
def word? : List Char → List Symbol → Option (List Symbol)
  | [], s => some s
  | c :: word, s =>
    match skip? c s with
    | some rest => word? word rest
    | none => none

/-- The token that begins with the character `c`, and what follows it. -/
def token? (c : Char) (rest : List Symbol) : Option (Token × List Symbol) :=
  if h : c = ' ' ∨ c = '\n' ∨ c = '\t' ∨ c = '\r' then some (.blank ⟨c, h⟩, rest)
  else if c = '[' then some (.openArray, rest)
  else if c = ']' then some (.closeArray, rest)
  else if c = '\x7b' then some (.openObject, rest)
  else if c = '\x7d' then some (.closeObject, rest)
  else if c = ',' then some (.comma, rest)
  else if c = ':' then some (.colon, rest)
  else if c = '"' then (quotedFrom [] rest).map fun (q, rest) => (.atom (.string q), rest)
  else if c = 'n' then (word? ['u', 'l', 'l'] rest).map fun rest => (.atom .null, rest)
  else if c = 't' then (word? ['r', 'u', 'e'] rest).map fun rest => (.atom (.bool true), rest)
  else if c = 'f' then
    (word? ['a', 'l', 's', 'e'] rest).map fun rest => (.atom (.bool false), rest)
  else (numeral? (.char c :: rest)).map fun (n, rest) => (.atom (.number n), rest)

/-- Reads all of `s` after the tokens `done`, the latest first. A token takes at least one symbol,
so as many steps as there are symbols are enough. -/
def tokensFrom : Nat → List Token → List Symbol → Option (List Token)
  | _, done, [] => some done.reverse
  | 0, _, _ :: _ => none
  | _, _, .stray _ :: _ => none
  | steps + 1, done, .char c :: rest =>
    match token? c rest with
    | some (t, rest) => tokensFrom steps (t :: done) rest
    | none => none

/-- The tokens of a text. -/
def tokens? (s : List Symbol) : Option (List Token) := tokensFrom s.length [] s

end DocumentSearch.Json
