import DocumentSearch.Decimal.Shortest

/-!
# How a double is written

Two notations of the same shortest digits. In documents a double always shows that it is one, by a
fraction or an exponent, and very large and very small ones are written with an exponent. In plain
text, such as the id of a document, the digits stand alone.
-/

namespace DocumentSearch.Decimal

/-- The parts of a written decimal: the digits before the point, those after it when there is a
point, and the exponent when there is one. -/
structure Written where
  negative : Bool
  whole : List Nat
  fraction : List Nat
  exponent : Option Int
  deriving DecidableEq, Repr

/-- How the digits of a double are laid out. -/
structure Notation where
  tie : Tie
  /-- Where the point may stand for positional notation; elsewhere an exponent is written. -/
  positional : Int → Bool
  /-- Whether a whole number is written with a fraction of one zero. -/
  markWhole : Bool

/-- Documents: positional from `1e-5` up to, and without, `1e16`; a fraction or an exponent always;
a half goes to the even digit. -/
def Notation.document : Notation :=
  ⟨.toEven, fun p => -4 ≤ p ∧ p ≤ 16, true⟩

/-- Plain text: always positional, no fraction on a whole number; a half goes up. -/
def Notation.plain : Notation := ⟨.up, fun _ => true, false⟩

/-- Lays out the digits of a positive value. -/
def Notation.layOut (f : Notation) (negative : Bool) (d : Digits) : Written :=
  if f.positional d.point then
    let whole := d.digits.take d.point.toNat ++
      List.replicate (d.point.toNat - d.digits.length) 0
    let fraction := List.replicate (-d.point).toNat 0 ++ d.digits.drop d.point.toNat
    ⟨negative, if whole = [] then [0] else whole,
      if fraction = [] ∧ f.markWhole then [0] else fraction, none⟩
  else ⟨negative, d.digits.take 1, d.digits.drop 1, some (d.point - 1)⟩

/-- A finite double as it is written. -/
def Notation.write (f : Notation) (x : Float) : Written :=
  let bits := x.toBits
  let negative := decide (0x8000000000000000 ≤ bits.toNat)
  if bits.toNat % 0x8000000000000000 = 0 then ⟨negative, [0], if f.markWhole then [0] else [], none⟩
  else f.layOut negative ((Magnitude.ofBits bits).shortest f.tie)

def digitText (ds : List Nat) : List Char := ds.map fun d => Char.ofNat (48 + d)

/-- A double as plain text. -/
def plainText (x : Float) : String :=
  if x.isNaN then "NaN"
  else if x.isInf then if x < 0 then "-inf" else "inf"
  else
    let w := Notation.plain.write x
    String.ofList ((if w.negative then ['-'] else []) ++ digitText w.whole ++
      if w.fraction = [] then [] else '.' :: digitText w.fraction)

end DocumentSearch.Decimal
