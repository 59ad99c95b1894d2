import VisualNovel.Number.Arith
import VisualNovel.Text.Hex

/-!
# Colours

A colour has four channels of eight bits: opacity, red, green and blue.
-/

namespace VisualNovel

/-- A colour with its opacity in `a`. -/
structure Color where
  a : UInt8
  r : UInt8
  g : UInt8
  b : UInt8
  deriving DecidableEq, Repr, Inhabited

namespace Color

def white : Color := ⟨255, 255, 255, 255⟩
def transparent : Color := ⟨0, 0, 0, 0⟩

/-- An opaque colour. -/
def rgb (r g b : UInt8) : Color := ⟨255, r, g, b⟩

/-- The colour whose channels are the bytes of a number, opacity first. -/
def ofArgb (argb : Nat) : Color :=
  ⟨.ofNat (argb / 0x1000000), .ofNat (argb / 0x10000), .ofNat (argb / 0x100), .ofNat argb⟩

/-- Reads `#RRGGBB`, which is opaque, or `#AARRGGBB`. -/
def parseHex : List Char → Option Color
  | '#' :: ds =>
    if ds.length = 6 then (Text.hexValue? ds).map fun v => ofArgb (0xFF000000 + v)
    else if ds.length = 8 then (Text.hexValue? ds).map ofArgb
    else none
  | _ => none

/-- A channel as a number. -/
def channel (c : UInt8) : Single := Fp.ofInt c.toNat

/-- The nearest channel value of a number; what is not a number gives zero. -/
def toChannel (x : Single) : UInt8 := UInt8.ofNat (x.round 0 255).toNat

/-- Opacity between zero and one. -/
def alpha (c : Color) : Single := channel c.a / 255

/-- The colour with another opacity, brought into the range from zero to one. -/
def withAlpha (c : Color) (alpha : Single) : Color :=
  { c with a := toChannel (alpha.clamp 0 1 * 255) }

/-- A channel between two others at the fraction `t`. -/
def mix (x y : UInt8) (t : Single) : UInt8 :=
  toChannel (channel x + (channel y - channel x) * t)

/-- The colour between two others at the fraction `t`, channel by channel. -/
def lerp (c d : Color) (t : Single) : Color :=
  ⟨mix c.a d.a t, mix c.r d.r t, mix c.g d.g t, mix c.b d.b t⟩

end Color

end VisualNovel
