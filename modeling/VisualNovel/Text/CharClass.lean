import VisualNovel.Text.LetterTable
import VisualNovel.Text.WordTable

/-!
# Classes of characters

Blanks, by which lines are trimmed and directives are split, word characters, which
name a markup tag, and letters and numbers, which name a group of a pattern.
-/

namespace VisualNovel.Text

/-- The white space characters of Unicode. -/
def isBlank (c : Char) : Bool :=
  let n := c.toNat
  (9 ≤ n && n ≤ 13) || n == 0x20 || n == 0x85 || n == 0xA0 || n == 0x1680
    || (0x2000 ≤ n && n ≤ 0x200A) || n == 0x2028 || n == 0x2029 || n == 0x202F
    || n == 0x205F || n == 0x3000

/-- The letters, digits, marks and connecting characters that make up words. -/
def isWordChar (c : Char) : Bool :=
  let n := c.toNat
  if n < 128 then c.isAlphanum || c == '_'
  else wordRanges.any fun (lo, hi) => lo ≤ n && n ≤ hi

/-- The alphabetic characters. -/
def isLetter (c : Char) : Bool :=
  let n := c.toNat
  if n < 128 then c.isAlpha else letterRanges.any fun (lo, hi) => lo ≤ n && n ≤ hi

/-- The digits and other numbers. -/
def isNumber (c : Char) : Bool :=
  let n := c.toNat
  if n < 128 then c.isDigit else numberRanges.any fun (lo, hi) => lo ≤ n && n ≤ hi

end VisualNovel.Text
