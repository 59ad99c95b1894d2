import VisualNovel.Pattern.Fault
import VisualNovel.Text.Trim

/-!
# Reports on patterns

A report shows the pattern with marks below the parts at fault. The lines of a pattern
with several are numbered, and a part over several lines is told by its ends.
-/

namespace VisualNovel.Pattern

/-- The pieces of a pattern between line feeds. -/
def pieces (pattern : List Char) : List (List Char) := Text.splitBy (· = '\n') pattern

/-- How wide the numbers of lines are. A single line has none. -/
def numberWidth (pattern : List Char) : Nat :=
  if (pieces pattern).length ≤ 1 then 0
  else (Nat.toDigits 10 (pieces pattern).length).length

/-- A line as it is shown, without the carriage return before its line feed. -/
def withoutReturn (line : List Char) : List Char :=
  if line.getLast? = some '\r' then line.dropLast else line

/-- The lines that are shown. What follows the last line feed is one if it is not empty. -/
def shownLines (pattern : List Char) : List (List Char) :=
  let last := (pieces pattern).getLast?.getD []
  (pieces pattern).dropLast.map withoutReturn ++ (if last = [] then [] else [last])

/-- The parts at fault, the one that starts first before the other. -/
def Fault.spans (f : Fault) : List Span :=
  match f.first with
  | none => [f.span]
  | some s =>
    let isBefore :=
      s.start.line < f.span.start.line
        || (s.start.line = f.span.start.line && s.start.column ≤ f.span.start.column)
    if isBefore then [s, f.span] else [f.span, s]

/-- Marks below parts of one line, after the marks up to a column. -/
def marks : Nat → List Span → List Char
  | _, [] => []
  | column, s :: rest =>
    let start := max column (s.start.column - 1)
    let width := max 1 (s.stop.column - s.start.column)
    List.replicate (start - column) ' ' ++ List.replicate width '^' ++ marks (start + width) rest

/-- What stands before a line: its number, or blanks if there is only one. -/
def lineStart (width number : Nat) : List Char :=
  if width = 0 then [' ', ' ', ' ', ' ']
  else (Nat.toDigits 10 number).leftpad width ' ' ++ [':', ' ']

/-- A line with its marks below. -/
def markedLine (width : Nat) (spans : List Span) (number : Nat) (line : List Char) :
    List (List Char) :=
  let here := spans.filter fun s => s.isOneLine && s.start.line = number
  let shown := lineStart width number ++ line
  if here = [] then [shown]
  else [shown, List.replicate (lineStart width number).length ' ' ++ marks 0 here]

/-- The pattern with its marks, line by line. -/
def markedLines (width : Nat) (spans : List Span) : Nat → List (List Char) → List (List Char)
  | _, [] => []
  | number, line :: rest =>
    markedLine width spans number line ++ markedLines width spans (number + 1) rest

/-- A part over several lines by its ends. -/
def noteOn (s : Span) : String :=
  "on line " ++ toString s.start.line ++ " (column " ++ toString s.start.column
    ++ ") through line " ++ toString s.stop.line ++ " (column "
    ++ toString (s.stop.column - 1) ++ ")"

/-- The report on a fault of a pattern. -/
def Fault.report (f : Fault) (pattern : List Char) : String :=
  let marked := (markedLines (numberWidth pattern) f.spans 1 (shownLines pattern)).map
    String.ofList
  let ruler := String.ofList (List.replicate 79 '~')
  let notes := (f.spans.filter (!·.isOneLine)).map noteOn
  let body := if pattern.contains '\n' then ruler :: marked ++ ruler :: notes else marked
  "\n".intercalate ("regex parse error:" :: body ++ ["error: " ++ f.cause.message])

end VisualNovel.Pattern
