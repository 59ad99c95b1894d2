import VisualNovel.Text.CharClass

/-!
# Lines, trimming and words

Text is read as its list of characters. `trim` takes blanks off both ends,
`words` are the maximal runs without blanks, `lines` the pieces between line
feeds.
-/

namespace VisualNovel.Text

/-- The text without the blanks at its start. -/
def trimStart (cs : List Char) : List Char := cs.dropWhile isBlank

/-- The text without the blanks at its end. -/
def trimEnd : List Char → List Char
  | [] => []
  | c :: cs =>
    match trimEnd cs with
    | [] => if isBlank c then [] else [c]
    | r => c :: r

/-- The text without the blanks at both ends. -/
def trim (cs : List Char) : List Char := trimEnd (trimStart cs)

/-- Prepends a character to the first of several pieces. -/
def consFirst (c : Char) : List (List Char) → List (List Char)
  | [] => [[c]]
  | p :: ps => (c :: p) :: ps

/-- The pieces between separators: one more than there are separators. -/
def splitBy (isSeparator : Char → Bool) : List Char → List (List Char)
  | [] => [[]]
  | c :: cs =>
    if isSeparator c then [] :: splitBy isSeparator cs
    else consFirst c (splitBy isSeparator cs)

/-- The maximal runs of characters that are not blank. -/
def words (cs : List Char) : List (List Char) := (splitBy isBlank cs).filter (· ≠ [])

/-- The pieces between line feeds; what follows the last line feed is a line only
if it is not empty. -/
def lines : List Char → List (List Char)
  | [] => []
  | c :: cs => if c = '\n' then [] :: lines cs else consFirst c (lines cs)

/-- Splits at the first `>>`. -/
def splitAtArrows : List Char → Option (List Char × List Char)
  | '>' :: '>' :: rest => some ([], rest)
  | [] => none
  | c :: cs => (splitAtArrows cs).map fun (before, after) => (c :: before, after)

end VisualNovel.Text
