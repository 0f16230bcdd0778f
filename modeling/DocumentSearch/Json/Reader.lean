import DocumentSearch.Json.Basic
import DocumentSearch.Json.Tree

/-!
# Values of syntax trees

What a spelled value means. A string means something unless it holds bytes that are not UTF-8 or
half of a surrogate pair; a number unless it is beyond every double; an array or object unless it
is nested too deeply, or something inside it means nothing.

An object can also embed a text: then it stands for the value that the text spells, which is read
like any other text, with a nesting of its own.
-/

namespace DocumentSearch.Json

/-! ### Strings -/

/-- The number that four hexadecimal digits spell. -/
def codeUnit (a b c d : HexDigit) : Nat :=
  ((HexDigit.value a * 16 + HexDigit.value b) * 16 + HexDigit.value c) * 16 + HexDigit.value d

def isHighSurrogate (n : Nat) : Bool := 0xD800 ≤ n && n < 0xDC00

def isLowSurrogate (n : Nat) : Bool := 0xDC00 ≤ n && n < 0xE000

/-- The characters that the pieces spell, after `done`, the latest first. -/
def charsFrom (done : List Char) : List Piece → Option (List Char)
  | [] => some done.reverse
  | .plain c :: rest => charsFrom (c.val :: done) rest
  | .stray _ :: _ => none
  | .short e :: rest => charsFrom (ShortEscape.char e :: done) rest
  | .code a b c d :: rest =>
    let n := codeUnit a b c d
    if isHighSurrogate n then
      match rest with
      | .code a b c d :: rest =>
        let m := codeUnit a b c d
        if isLowSurrogate m then
          charsFrom (Char.ofNat (0x10000 + (n - 0xD800) * 0x400 + (m - 0xDC00)) :: done) rest
        else none
      | _ => none
    else if isLowSurrogate n then none
    else charsFrom (Char.ofNat n :: done) rest

/-- The text that a string spells. -/
def Quoted.value? (q : Quoted) : Option String := (charsFrom [] q).map String.ofList

/-! ### Numbers -/

/-- Appends digits to `n` for as long as the result fits 64 bits; the rest are given back. -/
def absorb (n : Nat) : List Digit → Nat × List Digit
  | [] => (n, [])
  | d :: rest =>
    if n * 10 + d.val < 0x10000000000000000 then absorb (n * 10 + d.val) rest
    else (n, d :: rest)

def digitsValue (ds : List Digit) : Nat := ds.foldl (fun n d => n * 10 + d.val) 0

def Exponent.value (e : Exponent) : Int :=
  let n := digitsValue (e.lead :: e.more)
  if e.sign = some .minus then -n else n

/-- `x · 10 ^ e`, with a rounding for each power of ten that is applied: at most `10 ^ 308` at
once, a larger negative exponent in several steps. Nothing when that is beyond every double. -/
def scaled (x : Float) (e : Int) : Option Float :=
  if e.natAbs ≤ 308 then
    let power := Float.ofScientific 1 false e.natAbs
    if 0 ≤ e then
      let y := x * power
      if y.isInf then none else some y
    else some (x / power)
  else if x == 0.0 then some x
  else if 0 ≤ e then none
  else scaled (x / Float.ofScientific 1 false 308) (e + 308)
termination_by e.natAbs

/-- The double with a significand of 64 bits and an exponent of ten. -/
def doubleOf (negative : Bool) (significand : Nat) (e : Int) : Option Number :=
  (scaled significand.toUInt64.toFloat e).map fun x => .float (if negative then -x else x)

/-- The number that a numeral spells. A whole number that fits 64 bits is kept exactly, a negative
zero apart. Of any other, the digits that fit 64 bits make the significand: digits of the whole
part that do not fit raise the exponent, digits of the fraction that do not fit are dropped. -/
def Numeral.value? (n : Numeral) : Option Number :=
  let (whole, spare) := absorb 0 (n.lead :: n.more)
  match n.fraction, n.exponent with
  | none, none =>
    if spare = [] then
      if ¬n.negative then some (.int whole)
      else if whole = 0 ∨ 0x8000000000000000 < whole then doubleOf true whole 0
      else some (.int (-whole))
    else doubleOf n.negative whole spare.length
  | fraction, exponent =>
    let places := (fraction.map fun (d, ds) => d :: ds).getD []
    let (significand, dropped) := absorb whole places
    let shift : Int := spare.length - (places.length - dropped.length : Nat)
    doubleOf n.negative significand (shift + (exponent.map Exponent.value).getD 0)

/-! ### Values -/

/-- How deep arrays and objects may be nested where a value is read. -/
def maxDepth : Nat := 127

def Atom.value? : Atom → Option Json
  | .null => some .null
  | .bool b => some (.bool b)
  | .number n => n.value?.map .number
  | .string q => (Quoted.value? q).map .string

/-- The members of an object with their names read, in the order they are spelled. -/
def Tree.named? (t : Tree) : Option (List (String × Tree)) :=
  t.entries?.bind fun entries => entries.mapM fun (k, v) => (Quoted.value? k).map fun k => (k, v)

/-- Whether every part of a tree means something, when it is nested at most `depth` deep and no
object embeds a text. -/
def Tree.isReadable (depth : Nat) (t : Tree) : Bool :=
  match t with
  | .atom a => a.value?.isSome
  | t =>
    match depth with
    | 0 => false
    | depth + 1 =>
      match t.items?, t.named? with
      | some items, _ => items.all (isReadable depth)
      | none, some entries => entries.all fun e => isReadable depth e.2
      | none, none => false

/-- The name of the member that embeds a text. It is a name like any other unless it comes first. -/
def embeddingName : String := "$serde_json::private::RawValue"

/-- Whether an object with these members embeds a text. -/
def isEmbedding : List (String × Tree) → Bool
  | (name, _) :: _ => name = embeddingName
  | [] => false

/-- The text that an object embeds: a string, and nothing beside it. -/
def embeddedText? : List (String × Tree) → Option String
  | [(_, .atom (.string q))] => Quoted.value? q
  | _ => none

/-- The value of a tree that is nested at most `depth` deep, where `embedded` reads the texts that
its objects embed. -/
def valueWith? (embedded : List Utf8.Symbol → Option Json) (depth : Nat) (t : Tree) :
    Option Json :=
  match t with
  | .atom a => a.value?
  | t =>
    match depth with
    | 0 => none
    | depth + 1 =>
      match t.items?, t.named? with
      | some items, _ => (items.mapM (valueWith? embedded depth)).map .array
      | none, some entries =>
        if isEmbedding entries then
          (embeddedText? entries).bind fun text => embedded (Utf8.symbols text)
        else
          (entries.mapM fun e =>
            (valueWith? embedded depth e.2).map fun value => (e.1, value)).map ofMembers
      | none, none => none

/-- Reads one value from a text, with fewer than `levels` texts embedded one in another. -/
def readWithin : Nat → List Utf8.Symbol → Option Json
  | 0, _ => none
  | levels + 1, s => (Tree.parse? s).bind (valueWith? (readWithin levels) maxDepth)

/-- Reads one value from a text. A text is longer than any that it embeds, so no text embeds others
as many levels deep as it has symbols. -/
def read? (s : List Utf8.Symbol) : Option Json := readWithin s.length s

/-- The value of a tree that is nested at most `depth` deep. -/
def ofTree? (depth : Nat) (t : Tree) : Option Json := valueWith? read? depth t

/-- The members of an object that embeds nothing itself, of two with one name the later one. -/
def membersOfTree? (depth : Nat) (t : Tree) : Option (Members Json) :=
  match depth, t.named? with
  | depth + 1, some entries =>
    (entries.mapM fun e => (ofTree? depth e.2).map fun value => (e.1, value)).map Members.ofList
  | _, _ => none

end DocumentSearch.Json
