/-!
# The fewest digits that read back

A double stands for every real that rounds to it, and the shortest decimal in that interval is the
text that names it best. The search is exact: for 1, 2, ... 17 digits it looks at the two
neighbours of the value on that decimal grid, and the first grid with a neighbour inside the
interval gives the answer. No grid before it can hold one, because a point of a grid that lies in
the interval has a neighbour of the value between the value and itself.
-/

namespace DocumentSearch.Decimal

/-- Which neighbour is taken when the value lies halfway between two that both read back. -/
inductive Tie where
  | toEven
  | up
  deriving DecidableEq, Repr

/-- A positive decimal: its digits, the first of them not zero, and where the point stands: the
value is `0.d₁d₂…dₙ · 10 ^ point`. -/
structure Digits where
  digits : List Nat
  point : Int
  deriving DecidableEq, Repr

/-- A positive double: `significand · 2 ^ exponent`, and whether the gap below it is half of the
gap above, as it is at a power of two. -/
structure Magnitude where
  significand : Nat
  exponent : Int
  narrowBelow : Bool
  deriving DecidableEq, Repr

/-- Reads the bits of a finite double that is not zero, leaving out its sign. -/
def Magnitude.ofBits (bits : UInt64) : Magnitude :=
  let n := bits.toNat
  let fraction : Nat := n % 0x10000000000000
  let biased : Nat := n / 0x10000000000000 % 0x800
  if biased = 0 then ⟨fraction, -1074, false⟩
  else ⟨0x10000000000000 + fraction, (biased : Int) - 1075, fraction = 0 ∧ 1 < biased⟩

/-- The digits of a number, the most significant first, with a bound on how many there are. -/
def digitsOf : Nat → Nat → List Nat
  | 0, _ => []
  | fuel + 1, n => if n < 10 then [n] else digitsOf fuel (n / 10) ++ [n % 10]

/-- Drops the zeros at the end, which no decimal needs. -/
def stripZeros (ds : List Nat) : List Nat := (ds.reverse.dropWhile (· = 0)).reverse

/-- The value in quarters of its gap, over the power of ten `10 ^ k`, as two natural numbers whose
quotient it is. -/
def Magnitude.scale (m : Magnitude) (k : Int) : Nat × Nat :=
  (Nat.pow 2 (m.exponent - 2).toNat * Nat.pow 10 (-k).toNat,
    Nat.pow 2 (2 - m.exponent).toNat * Nat.pow 10 k.toNat)

/-- Whether the value is at least `10 ^ k`. -/
def Magnitude.reaches (m : Magnitude) (k : Int) : Bool :=
  let (num, den) := m.scale k
  den ≤ 4 * m.significand * num

/-- Where the point stands: the `p` with `10 ^ (p - 1) ≤ value < 10 ^ p`. The estimate from the
length in bits is off by one at most. -/
def Magnitude.point (m : Magnitude) : Int :=
  let guess := ((Nat.log2 m.significand : Int) + m.exponent) * 1233 / 4096
  if m.reaches (guess + 1) then guess + 2
  else if m.reaches guess then guess + 1
  else guess

/-- The multiple of `10 ^ k` next to the value that reads back as it, if one does, and of two the
nearer. -/
def Magnitude.onGrid (m : Magnitude) (tie : Tie) (k : Int) : Option Nat :=
  let (num, den) := m.scale k
  let value := 4 * m.significand * num
  let low := (4 * m.significand - if m.narrowBelow then 1 else 2) * num
  let high := (4 * m.significand + 2) * num
  let closed := m.significand % 2 = 0
  let below := value / den
  let above := below + 1
  let belowFits := low < below * den ∨ (closed ∧ low = below * den)
  let aboveFits := above * den < high ∨ (closed ∧ above * den = high)
  if belowFits ∧ aboveFits then
    let down := value - below * den
    let up := above * den - value
    if down < up then some below
    else if up < down then some above
    else if tie = .toEven ∧ below % 2 = 0 then some below
    else some above
  else if belowFits then some below
  else if aboveFits then some above
  else none

/-- The first of the grids with `n`, `n + 1`, ... digits that holds a decimal which reads back. -/
def Magnitude.shortestFrom (m : Magnitude) (tie : Tie) (point : Int) : Nat → Nat → Digits
  | 0, _ => ⟨[0], point⟩
  | fuel + 1, n =>
    match m.onGrid tie (point - n) with
    | none => shortestFrom m tie point fuel (n + 1)
    | some d =>
      let ds := digitsOf 20 d
      ⟨stripZeros ds, point - n + ds.length⟩

/-- The shortest decimal that reads back as the value. Seventeen digits always do. -/
def Magnitude.shortest (m : Magnitude) (tie : Tie) : Digits := m.shortestFrom tie m.point 17 1

end DocumentSearch.Decimal
