/-!
# Binary floating-point numbers

A number of a binary interchange format is a sign and a magnitude field. Read as
a natural number the magnitude grows with the absolute value it stands for, so
ordering needs no decoding: finite numbers come first, then the infinity, and
above it the fields that are not numbers. Those keep their payload, so a number
that is only stored and read back keeps every bit.

`Fp.toRat` is the exact value of a finite number and `Fp.ofRat` the nearest
number to an exact value, ties to even; arithmetic is built from these two.
-/

namespace VisualNovel

/-- Two to a natural power. -/
def twoPow (n : Nat) : Nat := Nat.pow 2 n

theorem twoPow_pos (n : Nat) : 0 < twoPow n := Nat.two_pow_pos n

/-- Each power of two is twice the one before. -/
theorem twoPow_succ (n : Nat) : twoPow (n + 1) = 2 * twoPow n := by
  rw [Nat.mul_comm]; exact Nat.pow_succ 2 n

/-- A binary interchange format, by the size of its significand (the leading
one included) and of its exponent field. -/
structure FloatFormat where
  precision : Nat
  exponentBits : Nat
  deriving DecidableEq, Repr

namespace FloatFormat

/-- The 32-bit format. -/
def single : FloatFormat := ⟨24, 8⟩

/-- The 64-bit format. -/
def double : FloatFormat := ⟨53, 11⟩

/-- Number of fraction bits, the significand without its leading one. -/
def fractionBits (F : FloatFormat) : Nat := F.precision - 1

/-- Number of bits besides the sign. -/
def magnitudeBits (F : FloatFormat) : Nat := F.exponentBits + F.fractionBits

/-- The least positive number is two to this power. -/
def minExponent (F : FloatFormat) : Int :=
  3 - twoPow (F.exponentBits - 1) - F.precision

/-- The magnitude of the infinities: an exponent field of ones, no fraction. -/
def infinity (F : FloatFormat) : Nat := (twoPow F.exponentBits - 1) * twoPow F.fractionBits

/-- The fraction bit that marks a quiet non-number. -/
def quietBit (F : FloatFormat) : Nat := twoPow (F.fractionBits - 1)

end FloatFormat

/-- A floating-point number of format `F`. -/
structure Fp (F : FloatFormat) where
  negative : Bool
  magnitude : Nat
  magnitude_lt : magnitude < twoPow F.magnitudeBits
  deriving DecidableEq

/-- A 32-bit floating-point number. -/
abbrev Single := Fp .single

/-- A 64-bit floating-point number. -/
abbrev Double := Fp .double

namespace Fp

variable {F : FloatFormat}

/-- The number with the given sign and magnitude field, reduced to its width. -/
def ofMagnitude (negative : Bool) (magnitude : Nat) : Fp F :=
  ⟨negative, magnitude % twoPow F.magnitudeBits, Nat.mod_lt _ (twoPow_pos _)⟩

/-- The bit pattern, the sign in front of the magnitude. -/
def toBits (x : Fp F) : Nat :=
  (if x.negative then twoPow F.magnitudeBits else 0) + x.magnitude

/-- The number with a given bit pattern. -/
def ofBits (bits : Nat) : Fp F :=
  ofMagnitude (bits.testBit F.magnitudeBits) bits

/-- A bit pattern reads back as the number it was taken from. -/
theorem ofBits_toBits (x : Fp F) : (ofBits x.toBits : Fp F) = x := by
  obtain ⟨n, m, h⟩ := x
  cases n with
  | false =>
    simp [ofBits, toBits, ofMagnitude, Nat.mod_eq_of_lt h, Nat.testBit_lt_two_pow h]
  | true =>
    have hbit : (twoPow F.magnitudeBits + m).testBit F.magnitudeBits = true := by
      refine (Nat.testBit_two_pow_add_eq m F.magnitudeBits).trans ?_
      rw [Nat.testBit_lt_two_pow h]; rfl
    simp [ofBits, toBits, ofMagnitude, hbit, Nat.mod_eq_of_lt h]

/-- A bit pattern takes one bit more than the magnitude. -/
theorem toBits_lt (x : Fp F) : x.toBits < twoPow (F.magnitudeBits + 1) := by
  have h := x.magnitude_lt
  rw [twoPow_succ]
  unfold toBits
  split <;> omega

instance : Inhabited (Fp F) := ⟨ofMagnitude false 0⟩

/-- Zero, infinity and the quiet non-number, each with a sign. -/
def zero (negative : Bool) : Fp F := ofMagnitude negative 0

@[inherit_doc zero]
def infinite (negative : Bool) : Fp F := ofMagnitude negative F.infinity

@[inherit_doc zero]
def quietNaN (negative : Bool) : Fp F := ofMagnitude negative (F.infinity + F.quietBit)

/-- Whether the field stands for no number. -/
def isNaN (x : Fp F) : Bool := F.infinity < x.magnitude

/-- Whether the field stands for an infinity. -/
def isInfinite (x : Fp F) : Bool := x.magnitude == F.infinity

/-- Whether the field stands for a finite number. -/
def isFinite (x : Fp F) : Bool := x.magnitude < F.infinity

/-- Whether the number is zero, of either sign. -/
def isZero (x : Fp F) : Bool := x.magnitude == 0

/-- The non-number with its quiet bit set. -/
def quiet (x : Fp F) : Fp F := ofMagnitude x.negative (x.magnitude ||| F.quietBit)

/-- The significand and the exponent of two that a magnitude stands for. The
least exponent field shares its exponent with the next one and has no leading
one. -/
def decompose (F : FloatFormat) (magnitude : Nat) : Nat × Int :=
  let field := magnitude / twoPow F.fractionBits
  let fraction := magnitude % twoPow F.fractionBits
  if field = 0 then (fraction, F.minExponent)
  else (fraction + twoPow F.fractionBits, F.minExponent + field - 1)

/-- `m` times two to the power `e`. -/
def scaled (m : Int) (e : Int) : Rat :=
  if 0 ≤ e then ((m * twoPow e.toNat : Int) : Rat) else mkRat m (twoPow (-e).toNat)

/-- The exact value of a finite number. -/
def toRat (x : Fp F) : Rat :=
  let (m, e) := decompose F x.magnitude
  scaled (if x.negative then -(m : Int) else m) e

/-- The quotient of two naturals rounded to the nearest integer, ties to even. -/
def divHalfEven (a b : Nat) : Nat :=
  let q := a / b
  let r := a % b
  if 2 * r < b then q
  else if b < 2 * r then q + 1
  else q + q % 2

/-- The integer part of the base-two logarithm of `n / d`. -/
def ratioLog2 (n d : Nat) : Int :=
  let e : Int := (n.log2 : Int) - d.log2
  if 0 ≤ e then (if d * twoPow e.toNat ≤ n then e else e - 1)
  else (if d ≤ n * twoPow (-e).toNat then e else e - 1)

/-- The magnitude nearest to the positive ratio `n / d`, ties to even. The
significand is rounded on the grid of its exponent; one that rounds up to the
next power of two carries into the exponent field by itself, and what passes the
largest finite magnitude is infinite. -/
def roundMagnitude (F : FloatFormat) (n d : Nat) : Nat :=
  let k := max (ratioLog2 n d - F.fractionBits) F.minExponent
  let m := if 0 ≤ k then divHalfEven n (d * twoPow k.toNat)
    else divHalfEven (n * twoPow (-k).toNat) d
  min F.infinity ((k - F.minExponent).toNat * twoPow F.fractionBits + m)

/-- The number nearest to `q`, ties to even; an exact zero takes the given sign. -/
def ofRat (zeroNegative : Bool) (q : Rat) : Fp F :=
  if q = 0 then zero zeroNegative
  else ofMagnitude (q < 0) (roundMagnitude F q.num.natAbs q.den)

/-- The number nearest to an integer. -/
def ofInt (i : Int) : Fp F := ofRat false i

/-- A key that orders the numbers: both zeros get the same one. -/
def orderKey (x : Fp F) : Int := if x.negative then -(x.magnitude : Int) else x.magnitude

/-- Numeric equality: the zeros are equal, and a non-number equals nothing. -/
def numEq (x y : Fp F) : Bool := !x.isNaN && !y.isNaN && x.orderKey == y.orderKey

/-- Numeric order, false as soon as one side is not a number. -/
def less (x y : Fp F) : Bool := !x.isNaN && !y.isNaN && x.orderKey < y.orderKey

@[inherit_doc less]
def lessEq (x y : Fp F) : Bool := !x.isNaN && !y.isNaN && x.orderKey ≤ y.orderKey

end Fp

end VisualNovel
