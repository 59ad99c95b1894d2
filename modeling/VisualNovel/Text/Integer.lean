import VisualNovel.Text.Trim

/-!
# Integers in text

`readInt` reads an optional sign and decimal digits and says why a text is not an
integer of the wanted range. The first offending character decides: digits that
leave the range before it win over it.
-/

namespace VisualNovel.Text

/-- Why a text is not an integer of a range. -/
inductive IntError
  | empty
  | invalidDigit
  | tooLarge
  | tooSmall
  deriving DecidableEq, Repr

/-- The wording of the error. -/
def IntError.message : IntError → String
  | .empty => "cannot parse integer from empty string"
  | .invalidDigit => "invalid digit found in string"
  | .tooLarge => "number too large to fit in target type"
  | .tooSmall => "number too small to fit in target type"

/-- Continues a number `n` with more digits, refusing to leave `bound`. -/
def readDigits (overflow : IntError) (bound : Nat) : Nat → List Char → Except IntError Nat
  | n, [] => .ok n
  | n, c :: cs =>
    if c.isDigit then
      let m := 10 * n + (c.toNat - '0'.toNat)
      if m ≤ bound then readDigits overflow bound m cs else .error overflow
    else .error .invalidDigit

/-- Reads an integer between `-below` and `above`. A minus sign is only a sign
where negative numbers are in range. -/
def readInt (below above : Nat) : List Char → Except IntError Int
  | [] => .error .empty
  | [c] => if c.isDigit then (readDigits .tooLarge above 0 [c]).map Int.ofNat
    else .error .invalidDigit
  | '+' :: cs => (readDigits .tooLarge above 0 cs).map Int.ofNat
  | '-' :: cs =>
    if below = 0 then .error .invalidDigit
    else (readDigits .tooSmall below 0 cs).map fun n => -(n : Int)
  | cs => (readDigits .tooLarge above 0 cs).map Int.ofNat

/-- Reads a natural number up to `above`. -/
def readNat (above : Nat) (cs : List Char) : Except IntError Nat :=
  (readInt 0 above cs).map Int.toNat

/-- The largest 32-bit and 64-bit natural. -/
def maxWord32 : Nat := 4294967295

@[inherit_doc maxWord32]
def maxWord64 : Nat := 18446744073709551615

/-- The largest 32-bit and 64-bit signed integer. -/
def maxInt32 : Nat := 2147483647

@[inherit_doc maxInt32]
def maxInt64 : Nat := 9223372036854775807

/-- Reads a 32-bit signed integer. -/
def readInt32? (cs : List Char) : Option Int32 :=
  (readInt (maxInt32 + 1) maxInt32 cs).toOption.map Int32.ofInt

/-- Reads a 64-bit signed integer. -/
def readInt64? (cs : List Char) : Option Int :=
  (readInt (maxInt64 + 1) maxInt64 cs).toOption

end VisualNovel.Text
