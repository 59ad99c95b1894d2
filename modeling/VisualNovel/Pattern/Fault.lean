/-!
# Faults of patterns

A pattern that cannot be read, or has no meaning, is refused with a cause and the part
of it that is at fault.
-/

namespace VisualNovel.Pattern

/-- A place in a pattern, before one of its characters. Lines and columns count from one. -/
structure Position where
  line : Nat := 1
  column : Nat := 1
  deriving DecidableEq, Repr

/-- The place after a character. -/
def Position.after (p : Position) (c : Char) : Position :=
  if c = '\n' then ⟨p.line + 1, 1⟩ else ⟨p.line, p.column + 1⟩

/-- A part of a pattern, from one place to another. -/
structure Span where
  start : Position
  stop : Position
  deriving DecidableEq, Repr

/-- The part from the start of one part to the end of another. -/
def Span.to (s t : Span) : Span := ⟨s.start, t.stop⟩

/-- Whether a part lies on one line. -/
def Span.isOneLine (s : Span) : Bool := s.start.line = s.stop.line

/-- Why a pattern is refused. -/
inductive Cause
  -- Escapes
  | escapeCut
  | escapeUnknown
  | hexEmpty
  | hexDigit
  | hexValue
  | backReference
  | propertyForm
  | boundaryCut
  | boundaryUnclosed
  | boundaryUnknown
  -- Classes
  | classUnclosed
  | classEscape
  | rangeOrder
  | rangeEnd
  -- Groups
  | groupUnclosed
  | groupUnopened
  | lookAround
  | nameCut
  | nameEmpty
  | nameCharacter
  | nameTwice
  | flagCut
  | flagUnknown
  | flagTwice
  | negationTwice
  | negationDangling
  -- Repetitions
  | repeatsNothing
  | countUnclosed
  | countEmpty
  | countValue
  | countOrder
  -- Meaning
  | tooDeep
  | unicodeForbidden
  | notText
  | propertyUnknown
  | propertyValueUnknown
  deriving DecidableEq, Repr

/-- How deep the parts of a pattern may nest. -/
def maxNesting : Nat := 250

/-- The wording of a cause. -/
def Cause.message : Cause → String
  | .escapeCut => "incomplete escape sequence, reached end of pattern prematurely"
  | .escapeUnknown => "unrecognized escape sequence"
  | .hexEmpty => "hexadecimal literal empty"
  | .hexDigit => "invalid hexadecimal digit"
  | .hexValue => "hexadecimal literal is not a Unicode scalar value"
  | .backReference => "backreferences are not supported"
  | .propertyForm => "invalid Unicode character class"
  | .boundaryCut =>
    "found either the beginning of a special word boundary or a bounded repetition on a \\b "
      ++ "with an opening brace, but no closing brace"
  | .boundaryUnclosed =>
    "special word boundary assertion is either unclosed or contains an invalid character"
  | .boundaryUnknown =>
    "unrecognized special word boundary assertion, valid choices are: start, end, start-half "
      ++ "or end-half"
  | .classUnclosed => "unclosed character class"
  | .classEscape => "invalid escape sequence found in character class"
  | .rangeOrder => "invalid character class range, the start must be <= the end"
  | .rangeEnd => "invalid range boundary, must be a literal"
  | .groupUnclosed => "unclosed group"
  | .groupUnopened => "unopened group"
  | .lookAround => "look-around, including look-ahead and look-behind, is not supported"
  | .nameCut => "unclosed capture group name"
  | .nameEmpty => "empty capture group name"
  | .nameCharacter => "invalid capture group character"
  | .nameTwice => "duplicate capture group name"
  | .flagCut => "expected flag but got end of regex"
  | .flagUnknown => "unrecognized flag"
  | .flagTwice => "duplicate flag"
  | .negationTwice => "flag negation operator repeated"
  | .negationDangling => "dangling flag negation operator"
  | .repeatsNothing => "repetition operator missing expression"
  | .countUnclosed => "unclosed counted repetition"
  | .countEmpty => "repetition quantifier expects a valid decimal"
  | .countValue => "decimal literal invalid"
  | .countOrder => "invalid repetition count range, the start must be <= the end"
  | .tooDeep =>
    "exceed the maximum number of nested parentheses/brackets (" ++ toString maxNesting ++ ")"
  | .unicodeForbidden => "Unicode not allowed here"
  | .notText => "pattern can match invalid UTF-8"
  | .propertyUnknown => "Unicode property not found"
  | .propertyValueUnknown => "Unicode property value not found"

/-- A cause with the part at fault. What is there twice has its first part too. -/
structure Fault where
  cause : Cause
  span : Span
  first : Option Span := none
  deriving DecidableEq, Repr

/-- Refuses a part of a pattern. -/
def refuse {α : Type} (cause : Cause) (span : Span) : Except Fault α := .error { cause, span }

end VisualNovel.Pattern
