import VisualNovel.Number.Fp

/-!
# Decimal text of floating-point numbers

`Fp.read?` reads decimal notation and rounds it once. `Fp.shortest` is the
fewest decimal digits that round back to a number, and `Fp.positional` writes
them without an exponent.
-/

namespace VisualNovel

/-- The value of a run of decimal digits. -/
def digitsValue (ds : List Char) : Nat :=
  ds.foldl (fun n c => 10 * n + (c.toNat - '0'.toNat)) 0

/-- A decimal number as it is written: `digits` times ten to the `exponent`. -/
structure DecimalNotation where
  digits : List Char
  exponent : Int
  deriving DecidableEq, Repr

namespace DecimalNotation

/-- The power of ten after an `e` or `E`: an optional sign and at least one digit. -/
def readExponent : List Char → Option Int
  | '-' :: ds => if ds ≠ [] ∧ ds.all Char.isDigit then some (-(digitsValue ds : Int)) else none
  | '+' :: ds => if ds ≠ [] ∧ ds.all Char.isDigit then some (digitsValue ds) else none
  | ds => if ds ≠ [] ∧ ds.all Char.isDigit then some (digitsValue ds) else none

/-- Reads digits with at most one point, and an optional power of ten. At least
one digit has to stand before or after the point. -/
def read (cs : List Char) : Option DecimalNotation :=
  let whole := cs.takeWhile Char.isDigit
  let rest := cs.dropWhile Char.isDigit
  let (fraction, rest) := match rest with
    | '.' :: r => (r.takeWhile Char.isDigit, r.dropWhile Char.isDigit)
    | r => ([], r)
  if whole = [] ∧ fraction = [] then none
  else match rest with
    | [] => some ⟨whole ++ fraction, -fraction.length⟩
    | c :: r =>
      if c = 'e' ∨ c = 'E' then
        (readExponent r).map fun e => ⟨whole ++ fraction, e - fraction.length⟩
      else none

end DecimalNotation

/-- Ten to an integer power. -/
def tenPow (e : Int) : Rat :=
  if 0 ≤ e then (Nat.pow 10 e.toNat : Rat) else mkRat 1 (Nat.pow 10 (-e).toNat)

namespace Fp

variable {F : FloatFormat}

/-- The number nearest to a decimal. A decimal with `n` significant digits lies
between two powers of ten, which settles the far ends of the range before any
large power is computed. -/
def ofDecimal (negative : Bool) (d : DecimalNotation) : Fp F :=
  let significant := d.digits.dropWhile (· = '0')
  let top : Int := d.exponent + significant.length
  if significant = [] then zero negative
  else if twoPow F.exponentBits < top then infinite negative
  else if top < F.minExponent - 1 then zero negative
  else
    let q := (digitsValue significant : Rat) * tenPow d.exponent
    ofRat negative (if negative then -q else q)

/-- Whether the text is the word `w`, given in lower case, in any ASCII case. -/
def isWord (w : String) (cs : List Char) : Bool := cs.map Char.toLower = w.toList

/-- A number without its sign. -/
def readUnsigned (negative : Bool) (cs : List Char) : Option (Fp F) :=
  if isWord "inf" cs || isWord "infinity" cs then some (infinite negative)
  else if isWord "nan" cs then some (quietNaN negative)
  else (DecimalNotation.read cs).map (ofDecimal negative)

/-- Reads a number: an optional sign, then a decimal, `inf`, `infinity` or `nan`.
No blanks are allowed, and the value is rounded once. -/
def read? : List Char → Option (Fp F)
  | '-' :: cs => readUnsigned true cs
  | '+' :: cs => readUnsigned false cs
  | cs => readUnsigned false cs

/-! ## Writing -/

/-- The reals that round to a positive finite magnitude: half way down to the
number before it and half way up to the next one, both ends included exactly when
the significand is even. Below a power of two the numbers lie twice as dense. -/
structure RoundingInterval where
  low : Rat
  high : Rat
  closed : Bool

/-- The rounding interval of a positive finite number. -/
def roundingInterval (x : Fp F) : RoundingInterval :=
  let (m, e) := decompose F x.magnitude
  let atPower := x.magnitude % twoPow F.fractionBits = 0 ∧ twoPow F.fractionBits < x.magnitude
  { low := scaled (4 * m - (if atPower then 1 else 2)) (e - 2)
    high := scaled (4 * m + 2) (e - 2)
    closed := m % 2 = 0 }

/-- Whether `q` rounds to the number the interval belongs to. -/
def RoundingInterval.contains (i : RoundingInterval) (q : Rat) : Bool :=
  if i.closed then i.low ≤ q && q ≤ i.high else i.low < q && q < i.high

/-- Of the two neighbours of `q` on the grid of multiples of `10 ^ k`, the one
that lies in the interval, the nearer one if both do, the upper one on a tie. -/
def gridPoint (i : RoundingInterval) (q : Rat) (k : Int) : Option Nat :=
  let unit := tenPow k
  let below := (q / unit).floor.toNat
  let lower := (below : Rat) * unit
  let upper := ((below + 1 : Nat) : Rat) * unit
  match i.contains lower, i.contains upper with
  | true, true => some (if q - lower < upper - q then below else below + 1)
  | true, false => some below
  | false, true => some (below + 1)
  | false, false => none

/-- Searches the grids from `10 ^ k` downwards, at most `fuel` of them. -/
def searchGrids (i : RoundingInterval) (q : Rat) : Nat → Int → Nat × Int
  | 0, k => ((q / tenPow k).floor.toNat, k)
  | fuel + 1, k =>
    match gridPoint i q k with
    | some n => (n, k)
    | none => searchGrids i q fuel (k - 1)

/-- The fewest digits that round back to a finite number other than zero, as a
natural and a power of ten. The search starts at a power of ten beyond the
number; a grid finer than the spacing of the format always has a hit. -/
def shortest (x : Fp F) : Nat × Int :=
  let q := if x.negative then -x.toRat else x.toRat
  let log := ratioLog2 q.num.natAbs q.den
  -- The decimal logarithm of two lies between 0.30 and 0.31.
  let start := Int.fdiv (log * (if 0 ≤ log then 31 else 30)) 100 + 2
  searchGrids x.roundingInterval q (2 * F.precision + 10) start

/-- Decimal digits of `n` times ten to the power `k`, without an exponent. -/
def positional (n : Nat) (k : Int) : String :=
  if 0 ≤ k then toString (n * Nat.pow 10 k.toNat)
  else
    let places := (-k).toNat
    let digits := (Nat.toDigits 10 n).leftpad (places + 1) '0'
    let whole := digits.take (digits.length - places)
    let fraction := digits.drop (digits.length - places)
    String.ofList (whole ++ '.' :: fraction)

/-- The number in positional notation with the fewest digits that read back. -/
def toDecimal (x : Fp F) : String :=
  if x.isNaN then "NaN"
  else
    let magnitude :=
      if x.isInfinite then "inf"
      else if x.isZero then "0"
      else let (n, k) := x.shortest; positional n k
    if x.negative then "-" ++ magnitude else magnitude

/-- Whether the number is finite and has no fractional part. -/
def isWhole (x : Fp F) : Bool := x.isFinite && x.toRat.den == 1

end Fp

end VisualNovel
