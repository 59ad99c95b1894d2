import VisualNovel.Pattern.Basic
import VisualNovel.Pattern.Cursor
import VisualNovel.Text.Hex

/-!
# Escapes of patterns

What a backslash makes of the characters after it: a character that would mean
something else, one given by its code point, a class, or a place between characters.
-/

namespace VisualNovel.Pattern

/-! ## Code points -/

/-- How many digits follow the letter of a code point. -/
def codeDigits (c : Char) : Nat := if c = 'x' then 2 else if c = 'u' then 4 else 8

/-- So many hexadecimal digits. -/
def readDigits : Nat → Cursor → Except Fault (List Char × Cursor)
  | 0, c => .ok ([], c)
  | n + 1, c =>
    match c.rest with
    | [] => refuse .escapeCut c.span
    | d :: _ =>
      if (Text.hexDigit? d).isNone then refuse .hexDigit c.charSpan
      else do
        let (ds, c) ← readDigits n c.next
        pure (d :: ds, c)

/-- The hexadecimal digits before a closing brace or the end of the pattern. -/
def readBracedDigits : Nat → Cursor → Except Fault (List Char × Cursor)
  | 0, c => .ok ([], c)
  | fuel + 1, c =>
    match c.rest with
    | [] => .ok ([], c)
    | d :: _ =>
      if d = '\x7d' then .ok ([], c)
      else if (Text.hexDigit? d).isNone then refuse .hexDigit c.charSpan
      else do
        let (ds, c) ← readBracedDigits fuel c.next
        pure (d :: ds, c)

/-- A character by its code point, from the letter after a backslash. -/
def readCode (start : Position) (letter : Char) (c : Cursor) : Except Fault (Literal × Cursor) :=
  let c := c.next
  match c.rest with
  | [] => refuse .escapeCut c.span
  | '\x7b' :: _ => do
    let (ds, after) ← readBracedDigits c.rest.length c.next
    if after.rest = [] then refuse .escapeCut (after.since c.position)
    else if ds = [] then refuse .hexEmpty (after.next.since c.position)
    else match Text.codePoint? ds with
      | none => refuse .hexValue (after.since c.charSpan.stop)
      | some ch => pure (⟨after.next.since start, ch, false⟩, after.next)
  | _ => do
    let (ds, after) ← readDigits (codeDigits letter) c
    match Text.codePoint? ds with
    | none => refuse .hexValue (after.since c.position)
    | some ch => pure (⟨after.since start, ch, letter = 'x'⟩, after)

/-! ## Properties -/

/-- A text split at the first place where a separator stands. -/
def splitAt? (separator : List Char) : List Char → Option (List Char × List Char)
  | [] => none
  | c :: cs =>
    if separator.isPrefixOf (c :: cs) then some ([], (c :: cs).drop separator.length)
    else (splitAt? separator cs).map fun (before, after) => (c :: before, after)

/-- A property as it stands in braces: a name, or a name and a value. -/
def Property.ofChars (cs : List Char) : Property :=
  match (splitAt? ['!', '='] cs).or ((splitAt? [':'] cs).or (splitAt? ['='] cs)) with
  | some (name, value) => .valued name value
  | none => .named cs

/-- The characters before a closing brace or the end of the pattern. -/
def readBraced : Nat → Cursor → List Char × Cursor
  | 0, c => ([], c)
  | fuel + 1, c =>
    match c.rest with
    | [] => ([], c)
    | d :: _ =>
      if d = '\x7d' then ([], c)
      else
        let (ds, c) := readBraced fuel c.next
        (d :: ds, c)

/-- A property, from the letter after a backslash. -/
def readProperty (start : Position) (c : Cursor) : Except Fault (Pattern × Cursor) :=
  let c := c.next
  match c.rest with
  | [] => refuse .escapeCut c.span
  | '\x7b' :: _ =>
    let (name, after) := readBraced c.rest.length c.next
    if after.rest = [] then refuse .escapeCut after.span
    else .ok (.property (after.advance.since start) (.ofChars name), after.advance)
  | '\\' :: _ => refuse .propertyForm c.charSpan
  | letter :: _ => .ok (.property (c.next.since start) (.named [letter]), c.next)

/-! ## Boundaries -/

/-- The names of the edges of words. -/
def edges : List String := ["start", "end", "start-half", "end-half"]

/-- The letters and dashes that come next. -/
def readEdge : Nat → Cursor → List Char × Cursor
  | 0, c => ([], c)
  | fuel + 1, c =>
    match c.rest with
    | [] => ([], c)
    | d :: _ =>
      if d.isAlpha || d = '-' then
        let (ds, c) := readEdge fuel c.next
        (d :: ds, c)
      else ([], c)

/-- The cursor after the name of an edge in braces, if a letter or a dash comes after
the brace. What else is in braces repeats the boundary. -/
def readBoundaryName (start : Position) (c : Cursor) : Except Fault Cursor :=
  if c.rest.head? ≠ some '\x7b' then .ok c
  else
    let inside := c.next
    match inside.rest with
    | [] => refuse .boundaryCut (inside.since start)
    | d :: _ =>
      if d.isAlpha || d = '-' then
        let (name, after) := readEdge inside.rest.length inside
        if after.rest.head? ≠ some '\x7d' then refuse .boundaryUnclosed (after.since c.position)
        else if edges.contains (String.ofList name) then .ok after.advance
        else refuse .boundaryUnknown (after.since inside.position)
      else .ok c

/-! ## Escapes -/

/-- Whether a backslash lets a character stand for itself: all of ASCII may, except what
may come to mean something. -/
def isEscapable (c : Char) : Bool :=
  c.toNat < 128 && !c.isAlphanum && c ≠ '<' && c ≠ '>'

/-- The character a letter stands for after a backslash. -/
def control? (c : Char) : Option Char :=
  if c = 'a' then some '\x07'
  else if c = 'f' then some '\x0c'
  else if c = 't' then some '\t'
  else if c = 'n' then some '\n'
  else if c = 'r' then some '\r'
  else if c = 'v' then some '\x0b'
  else none

/-- The class of a letter after a backslash, and whether the letter is a capital, which
negates it. -/
def shortClass? (c : Char) : Option (Bool × ShortClass) :=
  if c = 'd' then some (false, .digit)
  else if c = 's' then some (false, .blank)
  else if c = 'w' then some (false, .word)
  else if c = 'D' then some (true, .digit)
  else if c = 'S' then some (true, .blank)
  else if c = 'W' then some (true, .word)
  else none

/-- An escape, from its backslash. -/
def readEscape (c : Cursor) : Except Fault (Pattern × Cursor) :=
  let start := c.position
  let c := c.advance
  match c.rest with
  | [] => refuse .escapeCut (c.since start)
  | ch :: _ =>
    let after := c.advance
    let span := after.since start
    if ch.isDigit then refuse .backReference span
    else if ch = 'x' || ch = 'u' || ch = 'U' then do
      let (l, c) ← readCode start ch c
      pure (.literal l, c)
    else if ch = 'p' || ch = 'P' then readProperty start c
    else if let some (negated, kind) := shortClass? ch then
      .ok (.short span negated kind, after)
    else if isEscapable ch then .ok (.literal ⟨span, ch, false⟩, after)
    else if let some d := control? ch then .ok (.literal ⟨span, d, false⟩, after)
    else if ch = 'b' then do
      let after ← readBoundaryName start after
      pure (.boundary (after.since start), after)
    else if ch = 'A' || ch = 'z' || ch = 'B' || ch = '<' || ch = '>' then
      .ok (.boundary span, after)
    else refuse .escapeUnknown span

end VisualNovel.Pattern
