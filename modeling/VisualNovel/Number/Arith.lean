import VisualNovel.Number.Fp

/-!
# Arithmetic

Each operation computes the exact result and rounds it once. What is left are
the cases with an operand that is not finite, and the sign of a zero result.
-/

namespace VisualNovel.Fp

variable {F : FloatFormat}

/-- The result of an operation without a numeric answer. -/
def invalid : Fp F := quietNaN true

/-- An operand that is not a number is the answer, the first one before the
second; otherwise `result`. -/
def propagating (x y : Fp F) (result : Fp F) : Fp F :=
  if x.isNaN then x.quiet else if y.isNaN then y.quiet else result

/-- The number with its sign turned. -/
def neg (x : Fp F) : Fp F := { x with negative := !x.negative }

/-- Sum. A zero result is negative only if both operands are. -/
def add (x y : Fp F) : Fp F :=
  propagating x y <|
    if x.isInfinite then
      if y.isInfinite && x.negative != y.negative then invalid else x
    else if y.isInfinite then y
    else ofRat (x.negative && y.negative) (x.toRat + y.toRat)

/-- Difference: the sum with the turned second operand, except that a second
operand that is not a number is answered unturned. -/
def sub (x y : Fp F) : Fp F := propagating x y (x.add y.neg)

/-- Product. -/
def mul (x y : Fp F) : Fp F :=
  let sign := x.negative != y.negative
  propagating x y <|
    if x.isInfinite || y.isInfinite then
      if x.isZero || y.isZero then invalid else infinite sign
    else ofRat sign (x.toRat * y.toRat)

/-- Quotient. -/
def div (x y : Fp F) : Fp F :=
  let sign := x.negative != y.negative
  propagating x y <|
    if x.isInfinite then
      if y.isInfinite then invalid else infinite sign
    else if y.isInfinite then zero sign
    else if y.isZero then
      if x.isZero then invalid else infinite sign
    else ofRat sign (x.toRat / y.toRat)

instance : Add (Fp F) := ⟨add⟩
instance : Sub (Fp F) := ⟨sub⟩
instance : Mul (Fp F) := ⟨mul⟩
instance : Div (Fp F) := ⟨div⟩
instance : Neg (Fp F) := ⟨neg⟩
instance (n : Nat) : OfNat (Fp F) n := ⟨ofInt n⟩

/-- The number brought into the range `lo … hi`. What is not a number stays, and
a bound replaces only what lies strictly beyond it. -/
def clamp (x lo hi : Fp F) : Fp F :=
  let raised := if x.less lo then lo else x
  if hi.less raised then hi else raised

/-- The integer `i` brought into the range `lo … hi`. -/
def clampInt (lo hi i : Int) : Int := if i < lo then lo else if hi < i then hi else i

/-- An integer reading of a number by `f`, brought into the range `lo … hi`; what
is not a number reads as zero. -/
def toIntBy (f : Rat → Int) (lo hi : Int) (x : Fp F) : Int :=
  if x.isNaN then 0
  else if x.isInfinite then (if x.negative then lo else hi)
  else clampInt lo hi (f x.toRat)

/-- The integer part of a ratio, toward zero. -/
def ratTruncate (q : Rat) : Int := Int.tdiv q.num q.den

/-- The integer nearest to a ratio, halves away from zero. -/
def ratRound (q : Rat) : Int :=
  let magnitude : Int := ((2 * q.num.natAbs + q.den) / (2 * q.den) : Nat)
  if q < 0 then -magnitude else magnitude

/-- The integer part, toward zero, within `lo … hi`. -/
def truncate (lo hi : Int) (x : Fp F) : Int := toIntBy ratTruncate lo hi x

/-- The nearest integer, halves away from zero, within `lo … hi`. -/
def round (lo hi : Int) (x : Fp F) : Int := toIntBy ratRound lo hi x

end VisualNovel.Fp
