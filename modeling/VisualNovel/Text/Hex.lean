/-!
# Hexadecimal digits

Digits in either case, and the number or the character a run of them stands for.
-/

namespace VisualNovel.Text

/-- The value of a hexadecimal digit. -/
def hexDigit? (c : Char) : Option Nat :=
  if c.isDigit then some (c.toNat - '0'.toNat)
  else if 'a' ≤ c ∧ c ≤ 'f' then some (c.toNat - 'a'.toNat + 10)
  else if 'A' ≤ c ∧ c ≤ 'F' then some (c.toNat - 'A'.toNat + 10)
  else none

/-- The value of a run of hexadecimal digits. -/
def hexValue? (ds : List Char) : Option Nat :=
  ds.foldlM (fun n c => (hexDigit? c).map (16 * n + ·)) 0

/-- The character whose code point has the given hexadecimal digits. -/
def codePoint? (ds : List Char) : Option Char :=
  (hexValue? ds).bind fun n =>
    if h : n.isValidChar then some (Char.ofNatAux n h) else none

end VisualNovel.Text
