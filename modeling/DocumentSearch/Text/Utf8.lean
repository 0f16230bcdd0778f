/-!
# Text in bytes

The bodies that a search engine sends are bytes, and nothing promises that they are UTF-8. They are
read here as a list of symbols: a symbol is a character, or a run of bytes that spells none. A run
is as long as it can be while it still begins some character, so a reader that replaces each run
by U+FFFD shows the text the usual way, and a reader that must have text can refuse at the first
run. No byte is lost: the bytes of the symbols, joined, are the bytes that were read.
-/

namespace DocumentSearch.Utf8

/-- The bytes that spell a character. -/
def encodeChar (c : Char) : List UInt8 :=
  let n := c.toNat
  if n < 0x80 then [UInt8.ofNat n]
  else if n < 0x800 then [UInt8.ofNat (0xC0 + n / 64), UInt8.ofNat (0x80 + n % 64)]
  else if n < 0x10000 then
    [UInt8.ofNat (0xE0 + n / 4096), UInt8.ofNat (0x80 + n / 64 % 64), UInt8.ofNat (0x80 + n % 64)]
  else
    [UInt8.ofNat (0xF0 + n / 262144), UInt8.ofNat (0x80 + n / 4096 % 64),
      UInt8.ofNat (0x80 + n / 64 % 64), UInt8.ofNat (0x80 + n % 64)]

/-- The bytes that spell a text. -/
def encode (s : String) : List UInt8 := s.toList.flatMap encodeChar

/-- What the bytes of a body stand for: a character, or bytes that spell none. -/
inductive Symbol where
  | char (c : Char)
  | stray (bytes : List UInt8)
  deriving DecidableEq, Repr

/-- The bytes that a symbol was read from. -/
def Symbol.bytes : Symbol → List UInt8
  | .char c => encodeChar c
  | .stray bs => bs

/-- A character whose first bytes have been read: those bytes, how many are still owed, the range
of the next one, and the number that the bytes so far spell. -/
structure Pending where
  bytes : List UInt8
  owed : Nat
  low : Nat
  high : Nat
  code : Nat
  deriving DecidableEq, Repr

/-- What a byte begins when no character is pending. The ranges leave out spellings that are longer
than they need be, the surrogates, and everything above U+10FFFF. -/
def start (b : UInt8) : Symbol ⊕ Pending :=
  let n := b.toNat
  if n < 0x80 then .inl (.char (Char.ofNat n))
  else if n < 0xC2 then .inl (.stray [b])
  else if n < 0xE0 then .inr ⟨[b], 1, 0x80, 0xBF, n - 0xC0⟩
  else if n = 0xE0 then .inr ⟨[b], 2, 0xA0, 0xBF, 0⟩
  else if n = 0xED then .inr ⟨[b], 2, 0x80, 0x9F, 0xD⟩
  else if n < 0xF0 then .inr ⟨[b], 2, 0x80, 0xBF, n - 0xE0⟩
  else if n = 0xF0 then .inr ⟨[b], 3, 0x90, 0xBF, 0⟩
  else if n < 0xF4 then .inr ⟨[b], 3, 0x80, 0xBF, n - 0xF0⟩
  else if n = 0xF4 then .inr ⟨[b], 3, 0x80, 0x8F, 4⟩
  else .inl (.stray [b])

/-- Reads the bytes after `pending`, putting the symbols before `done`, the latest first. -/
def decodeFrom (done : List Symbol) (pending : Option Pending) : List UInt8 → List Symbol
  | [] =>
    match pending with
    | none => done.reverse
    | some p => (.stray p.bytes :: done).reverse
  | b :: rest =>
    let fresh (done : List Symbol) : List Symbol × Option Pending :=
      match start b with
      | .inl s => (s :: done, none)
      | .inr p => (done, some p)
    let next :=
      match pending with
      | none => fresh done
      | some p =>
        if p.low ≤ b.toNat ∧ b.toNat ≤ p.high then
          let code := p.code * 64 + b.toNat % 64
          if p.owed = 1 then (.char (Char.ofNat code) :: done, none)
          else (done, some ⟨p.bytes ++ [b], p.owed - 1, 0x80, 0xBF, code⟩)
        else fresh (.stray p.bytes :: done)
    decodeFrom next.1 next.2 rest

/-- The symbols of a body. -/
def decode (bytes : List UInt8) : List Symbol := decodeFrom [] none bytes

/-- The symbols of a text, which are its characters. -/
def symbols (s : String) : List Symbol := s.toList.map Symbol.char

/-- The character of a symbol that is one. -/
def Symbol.char? : Symbol → Option Char
  | .char c => some c
  | .stray _ => none

/-- The text of a body, each stray run shown as U+FFFD. -/
def lossy (bytes : List UInt8) : String :=
  String.ofList ((decode bytes).map fun s => s.char?.getD '\uFFFD')

/-- The text that symbols spell, if no run is stray. -/
def text? (symbols : List Symbol) : Option String :=
  (symbols.mapM Symbol.char?).map String.ofList

end DocumentSearch.Utf8
