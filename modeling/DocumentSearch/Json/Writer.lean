import DocumentSearch.Decimal.Notation
import DocumentSearch.Json.Basic
import DocumentSearch.Json.Tree

/-!
# Writing values

A value is written by choosing a syntax tree for it. There are two choices of white space: none at
all, and one member or element to a line, indented by two spaces for each bracket around it.
Strings escape the quote, the backslash and the control characters, and nothing else.
-/

namespace DocumentSearch.Json

open Utf8 (Symbol)

/-! ### Strings -/

def lowerHex (n : Nat) : Char := if n < 10 then Char.ofNat (48 + n) else Char.ofNat (87 + n)

/-- The hexadecimal digit for the last four bits of a number. -/
def HexDigit.ofNat (n : Nat) : HexDigit :=
  let c := lowerHex (n % 16)
  if h : (hexValue? c).isSome then ⟨c, h⟩ else ⟨'0', by decide⟩

/-- The letter that stands for a character after a backslash, where one does in what is written. -/
def shortFor? (c : Char) : Option ShortEscape :=
  if c = '"' then some ⟨'"', by decide⟩
  else if c = '\\' then some ⟨'\\', by decide⟩
  else if c = '\x08' then some ⟨'b', by decide⟩
  else if c = '\x0C' then some ⟨'f', by decide⟩
  else if c = '\n' then some ⟨'n', by decide⟩
  else if c = '\r' then some ⟨'r', by decide⟩
  else if c = '\t' then some ⟨'t', by decide⟩
  else none

def Piece.ofChar (c : Char) : Piece :=
  match shortFor? c with
  | some e => .short e
  | none =>
    if h : 0x20 ≤ c.toNat ∧ c ≠ '"' ∧ c ≠ '\\' then .plain ⟨c, h⟩
    else
      .code (HexDigit.ofNat 0) (HexDigit.ofNat 0) (HexDigit.ofNat (c.toNat / 16))
        (HexDigit.ofNat c.toNat)

def Quoted.ofString (s : String) : Quoted := s.toList.map Piece.ofChar

/-! ### Numbers -/

/-- The last digit of a number. -/
def Digit.ofNat (n : Nat) : Digit := ⟨n % 10, Nat.mod_lt n (by decide)⟩

/-- The digits of a number, after which come `rest`. -/
def digitsThen : Nat → Nat → List Digit → List Digit
  | 0, _, rest => rest
  | steps + 1, n, rest =>
    if n < 10 then Digit.ofNat n :: rest
    else digitsThen steps (n / 10) (Digit.ofNat n :: rest)

/-- The digits of a number, the most significant first. -/
def decimalDigits (n : Nat) : List Digit := digitsThen (n + 1) n []

/-- A numeral with these digits before the point, needless zeros left out. -/
def Numeral.ofParts (negative : Bool) (whole : List Digit) (fraction : Option (Digit × List Digit))
    (exponent : Option Exponent) : Numeral :=
  match whole.dropWhile (·.val = 0) with
  | [] => ⟨negative, .zero, [], fraction, exponent, fun _ => rfl⟩
  | d :: ds =>
    if h : d.val = 0 → ds = [] then ⟨negative, d, ds, fraction, exponent, h⟩
    else ⟨negative, .zero, [], fraction, exponent, fun _ => rfl⟩

def Numeral.ofInt (i : Int) : Numeral :=
  .ofParts (decide (i < 0)) (decimalDigits i.natAbs) none none

def Exponent.ofInt (e : Int) : Exponent :=
  match decimalDigits e.natAbs with
  | [] => ⟨false, none, .zero, []⟩
  | d :: ds => ⟨false, some (if e < 0 then .minus else .plus), d, ds⟩

def Numeral.ofWritten (w : Decimal.Written) : Numeral :=
  .ofParts w.negative (w.whole.map Digit.ofNat)
    (match w.fraction.map Digit.ofNat with
      | [] => none
      | d :: ds => some (d, ds))
    (w.exponent.map Exponent.ofInt)

/-- A finite double as a document shows it. -/
def Numeral.ofFloat (x : Float) : Numeral := .ofWritten (Decimal.Notation.document.write x)

/-- A number as it is spelled. A double that is not finite has no spelling and is written as
null. -/
def Number.atom : Number → Atom
  | .int i => .number (.ofInt i)
  | .float x => if x.isFinite then .number (.ofFloat x) else .null

/-! ### Trees -/

/-- The white space of a written text. -/
inductive Style where
  | compact
  | indented
  deriving DecidableEq, Repr

def space : Blank := ⟨' ', by decide⟩

/-- What stands before an element, a member or a closing bracket with `depth` brackets around. -/
def Style.line (style : Style) (depth : Nat) : Spaces :=
  match style with
  | .compact => []
  | .indented => ⟨'\n', by decide⟩ :: List.replicate (2 * depth) space

/-- What stands between a member's colon and its value. -/
def Style.beforeValue : Style → Spaces
  | .compact => []
  | .indented => [space]

/-- The elements of an array that begins with `first`. -/
def Items.ofList (style : Style) (depth : Nat) (first : Tree) : List Tree → Items
  | [] => .last (style.line depth) first (style.line (depth - 1))
  | t :: rest => .cons (style.line depth) first [] (ofList style depth t rest)

/-- The members of an object that begins with `first`. -/
def Entries.ofList (style : Style) (depth : Nat) (first : String × Tree) :
    List (String × Tree) → Entries
  | [] =>
    .last (style.line depth) (Quoted.ofString first.1) [] style.beforeValue first.2
      (style.line (depth - 1))
  | e :: rest =>
    .cons (style.line depth) (Quoted.ofString first.1) [] style.beforeValue first.2 []
      (ofList style depth e rest)

/-- An array with `depth` brackets around it. -/
def Tree.ofItems (style : Style) (depth : Nat) : List Tree → Tree
  | [] => .emptyArray []
  | t :: rest => .array (.ofList style (depth + 1) t rest)

/-- An object with `depth` brackets around it. -/
def Tree.ofEntries (style : Style) (depth : Nat) : List (String × Tree) → Tree
  | [] => .emptyObject []
  | e :: rest => .object (.ofList style (depth + 1) e rest)

mutual

/-- The tree that a value is written as, with `depth` brackets around it. -/
def toTree (style : Style) (depth : Nat) : Json → Tree
  | .null => .atom .null
  | .bool b => .atom (.bool b)
  | .number n => .atom (Number.atom n)
  | .string s => .atom (.string (Quoted.ofString s))
  | .array items => .ofItems style depth (treesOf style (depth + 1) items)
  | .object members => .ofEntries style depth (entriesOf style (depth + 1) members)

def treesOf (style : Style) (depth : Nat) : List Json → List Tree
  | [] => []
  | j :: rest => toTree style depth j :: treesOf style depth rest

def entriesOf (style : Style) (depth : Nat) : List (String × Json) → List (String × Tree)
  | [] => []
  | (k, j) :: rest => (k, toTree style depth j) :: entriesOf style depth rest

end

def Tree.quoted (s : String) : Tree := .atom (.string (Quoted.ofString s))

/-- An array without white space. -/
def Tree.listed (items : List Tree) : Tree := .ofItems .compact 0 items

/-- An object without white space, its members in the order given. -/
def Tree.record (fields : List (String × Tree)) : Tree := .ofEntries .compact 0 fields

/-- The characters of a tree. A tree that is written has no others. -/
def Tree.write (t : Tree) : String := String.ofList (t.text.filterMap Symbol.char?)

/-- A value without white space. -/
def write (j : Json) : String := (j.toTree .compact 0).write

/-- A value with a line for each element and member. -/
def writeIndented (j : Json) : String := (j.toTree .indented 0).write

/-- The bytes of a value without white space. -/
def bytes (j : Json) : List UInt8 := Utf8.encode j.write

end DocumentSearch.Json
