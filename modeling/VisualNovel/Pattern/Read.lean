import VisualNovel.Number.Decimal
import VisualNovel.Pattern.Bracket
import VisualNovel.Text.Integer

/-!
# Reading patterns

`read` makes a pattern of its text or finds the first fault in it. A bar parts choices,
parentheses make groups, and an operator repeats what stands before it.
-/

namespace VisualNovel.Pattern

/-! ## Groups -/

/-- The switch of a letter. -/
def flag? (c : Char) : Option Flag :=
  if c = 'i' then some .caseless
  else if c = 'm' then some .manyLines
  else if c = 's' then some .dotAll
  else if c = 'U' then some .lazy
  else if c = 'u' then some .unicode
  else if c = 'R' then some .carriageReturns
  else if c = 'x' then some .blanks
  else none

/-- What was read of some switches: where each stood, where the dash that turns them off
stood, and whether it was the last character. -/
structure FlagItems where
  items : List ((Flag × Bool) × Span) := []
  negation : Option Span := none
  endsNegated : Bool := false

/-- Switches up to a colon or a closing parenthesis. -/
def readFlags : Nat → FlagItems → Cursor → Except Fault (Flags × Cursor)
  | 0, _, c => refuse .flagCut c.span
  | fuel + 1, f, c =>
    match c.rest with
    | [] => refuse .flagCut c.span
    | ch :: _ =>
      if ch = ':' ∨ ch = ')' then
        match f.endsNegated, f.negation with
        | true, some dash => refuse .negationDangling dash
        | _, _ => .ok (f.items.map Prod.fst, c)
      else if ch = '-' then
        match f.negation with
        | some dash => .error ⟨.negationTwice, c.charSpan, some dash⟩
        | none =>
          readFlags fuel { f with negation := some c.charSpan, endsNegated := true } c.advance
      else
        match flag? ch with
        | none => refuse .flagUnknown c.charSpan
        | some flag =>
          match f.items.find? (·.1.1 = flag) with
          | some (_, span) => .error ⟨.flagTwice, c.charSpan, some span⟩
          | none =>
            let item := ((flag, f.negation.isNone), c.charSpan)
            readFlags fuel { f with items := f.items ++ [item], endsNegated := false } c.advance

/-- Whether a character may stand in the name of a group, where a digit is not the first. -/
def isNameChar (isFirst : Bool) (c : Char) : Bool :=
  c = '_' || Text.isLetter c
    || (!isFirst && (c = '.' || c = '[' || c = ']' || Text.isNumber c))

/-- The characters of a name up to its end. -/
def readNameChars : Nat → Bool → Cursor → Except Fault (List Char × Cursor)
  | 0, _, c => .ok ([], c)
  | fuel + 1, isFirst, c =>
    match c.rest with
    | [] => .ok ([], c)
    | ch :: _ =>
      if ch = '>' then .ok ([], c)
      else if isNameChar isFirst ch then do
        let (chs, c) ← readNameChars fuel false c.advance
        pure (ch :: chs, c)
      else refuse .nameCharacter c.charSpan

/-- The name of a group and its end. No two groups have one name. -/
def readName (c : Cursor) : Except Fault Cursor := do
  let (name, after) ← readNameChars c.rest.length true c
  if after.rest = [] then refuse .nameCut after.span
  else if name = [] then refuse .nameEmpty c.span
  else
    match after.names.lookup name with
    | some span => .error ⟨.nameTwice, after.since c.position, some span⟩
    | none =>
      pure { after.advance with names := (name, after.since c.position) :: after.names }

/-- What an opening parenthesis begins. -/
inductive Opening
  /-- Switches for the rest of the group around them. -/
  | flags (fs : Flags)
  | group (captures : Bool) (fs : Flags)

/-- What would look ahead or back. -/
def lookArounds : List String := ["?=", "?!", "?<=", "?<!"]

/-- What begins with an opening parenthesis, from there. -/
def readOpenGroup (c : Cursor) : Except Fault (Opening × Cursor) :=
  let opening := c.charSpan
  let c := c.next
  if let some after := lookArounds.findSome? c.after? then
    refuse .lookAround (after.since opening.start)
  else if let some after := ["?P<", "?<"].findSome? c.after? then do
    let after ← readName after
    pure (.group true [], after)
  else if let some after := c.after? "?" then
    if after.rest = [] then refuse .groupUnclosed opening
    else do
      let (fs, stop) ← readFlags after.rest.length {} after
      if stop.rest.head? = some ':' then pure (.group false fs, stop.advance)
      -- Without switches the question mark is an operator.
      else if stop.position = after.position then refuse .repeatsNothing c.span
      else pure (.flags fs, stop.advance)
  else .ok (.group true [], c)

/-! ## Repetitions -/

/-- The pattern before an operator, and those before it. Switches cannot be repeated. -/
def repeatable (items : List Pattern) (c : Cursor) : Except Fault (List Pattern × Pattern) :=
  match items.getLast? with
  | none | some (.flags ..) | some (.empty ..) => refuse .repeatsNothing c.span
  | some p => .ok (items.dropLast, p)

/-- The cursor after the question mark that makes an operator lazy. -/
def skipLazy (c : Cursor) : Cursor := (c.after? "?").getD c

/-- The cursor after blanks. -/
def skipBlankChars : Nat → (Cursor → Cursor) → Cursor → Cursor
  | 0, _, c => c
  | fuel + 1, step, c =>
    if c.rest.head?.any Text.isBlank then skipBlankChars fuel step (step c) else c

/-- The digits that come next. -/
def readDecimalDigits : Nat → Cursor → List Char × Cursor
  | 0, c => ([], c)
  | fuel + 1, c =>
    match c.rest with
    | [] => ([], c)
    | d :: _ =>
      if d.isDigit then
        let (ds, c) := readDecimalDigits fuel c.next
        (d :: ds, c)
      else ([], c)

/-- A number with blanks around it, and the cursor after them: the number may be at fault
while something else is too, which counts first. -/
def readCount (c : Cursor) : Except Fault Nat × Cursor :=
  let c := skipBlankChars c.rest.length Cursor.advance c
  let (ds, after) := readDecimalDigits c.rest.length c
  let count :=
    if ds = [] then refuse .countEmpty (after.since c.position)
    else if digitsValue ds ≤ Text.maxWord32 then .ok (digitsValue ds)
    else refuse .countValue (after.since c.position)
  (count, skipBlankChars after.rest.length Cursor.next after)

/-- How often something is repeated, from the opening brace to the closing one. -/
def readCounts (c : Cursor) : Except Fault ((Nat × Option Nat) × Cursor) :=
  let unclosed {α : Type} (reached : Cursor) : Except Fault α :=
    refuse .countUnclosed (reached.since c.position)
  let inside := c.next
  if inside.rest = [] then unclosed inside
  else
    let (least, c) := readCount inside
    match c.rest with
    | [] => unclosed c
    | ',' :: _ =>
      let c := c.next
      if c.rest = [] then unclosed c
      else if c.rest.head? = some '\x7d' then do pure ((← least, none), c)
      else do
        let least ← least
        let (most, c) := readCount c
        let most ← most
        if c.rest.head? = some '\x7d' then pure ((least, some most), c) else unclosed c
    | _ => do
      let least ← least
      if c.rest.head? = some '\x7d' then pure ((least, some least), c) else unclosed c

/-- Repeats the last pattern by the operator at the cursor. -/
def readRepetition (items : List Pattern) (c : Cursor) (operator : Char) :
    Except Fault (List Pattern × Cursor) := do
  let (before, p) ← repeatable items c
  if operator = '\x7b' then
    let ((least, most), stop) ← readCounts c
    let after := skipLazy stop.next
    if most.any (· < least) then refuse .countOrder (after.since c.position)
    else pure (before ++ [.repeated (after.since p.span.start) least most p], after)
  else
    let after := skipLazy c.advance
    let least := if operator = '+' then 1 else 0
    let most := if operator = '?' then some 1 else none
    pure (before ++ [.repeated (after.since p.span.start) least most p], after)

/-! ## Patterns -/

/-- What was read of a group or of a whole pattern: the branches of its choice, and the
sequence after them. -/
structure Draft where
  start : Position
  branches : List Pattern := []
  branchStart : Position
  items : List Pattern := []

/-- A draft with nothing in it. -/
def Draft.fresh (c : Cursor) : Draft := { start := c.position, branchStart := c.position }

/-- Adds a pattern to the sequence. -/
def Draft.push (d : Draft) (p : Pattern) : Draft := { d with items := d.items ++ [p] }

/-- The sequence up to the cursor. -/
def Draft.branch (d : Draft) (c : Cursor) : Pattern :=
  match d.items with
  | [] => .empty (c.since d.branchStart)
  | [p] => p
  | items => .sequence (c.since d.branchStart) items

/-- The draft after a bar at the cursor. -/
def Draft.nextBranch (d : Draft) (c : Cursor) : Draft :=
  { d with
    branches := d.branches ++ [d.branch c], branchStart := c.advance.position, items := [] }

/-- The pattern up to the cursor. -/
def Draft.pattern (d : Draft) (c : Cursor) : Pattern :=
  if d.branches = [] then d.branch c
  else .choice (c.since d.start) (d.branches ++ [d.branch c])

/-- A character, a class or a boundary. -/
def readSimple (c : Cursor) (ch : Char) : Except Fault (Pattern × Cursor) :=
  if ch = '\\' then readEscape c
  else if ch = '.' then .ok (.dot c.charSpan, c.advance)
  else if ch = '^' ∨ ch = '$' then .ok (.boundary c.charSpan, c.advance)
  else .ok (.literal ⟨c.charSpan, ch, false⟩, c.advance)

/-- The rest of a group, or of a whole pattern where there is no opening parenthesis. -/
def readRest (opening : Option Span) : Nat → Draft → Cursor → Except Fault (Pattern × Cursor)
  | 0, d, c => .ok (d.pattern c, c)
  | fuel + 1, d, c =>
    let c := c.skip
    match c.rest with
    | [] =>
      match opening with
      | some span => refuse .groupUnclosed span
      | none => .ok (d.pattern c, c)
    | ch :: _ =>
      if ch = ')' then
        if opening.isSome then .ok (d.pattern c, c.advance)
        else refuse .groupUnopened c.charSpan
      else if ch = '|' then readRest opening fuel (d.nextBranch c) c.advance
      else if ch = '(' then do
        let (begun, inside) ← readOpenGroup c
        match begun with
        | .flags fs =>
          let blanks := (fs.lookup .blanks).getD c.blanks
          readRest opening fuel (d.push (.flags (inside.since c.position) fs))
            { inside with blanks }
        | .group captures fs =>
          let blanks := (fs.lookup .blanks).getD c.blanks
          let (p, after) ← readRest (some c.charSpan) fuel (.fresh inside) { inside with blanks }
          readRest opening fuel (d.push (.group (after.since c.position) captures fs p))
            { after with blanks := c.blanks }
      else if ch = '[' then do
        let ((span, negated, set), c) ← readClass c.rest.length c
        readRest opening fuel (d.push (.bracketed span negated set)) c
      else if ch = '?' ∨ ch = '*' ∨ ch = '+' ∨ ch = '\x7b' then do
        let (items, c) ← readRepetition d.items c ch
        readRest opening fuel { d with items } c
      else do
        let (p, c) ← readSimple c ch
        readRest opening fuel (d.push p) c

/-- Reads a pattern. -/
def read (text : List Char) : Except Fault Pattern := do
  let c : Cursor := { rest := text }
  let (p, _) ← readRest none (text.length + 1) (.fresh c) c
  pure p

end VisualNovel.Pattern
