import VisualNovel.Pattern.Escape

/-!
# Classes in brackets

A class lists characters, ranges and other classes between brackets, and combines such
lists by operators from left to right.
-/

namespace VisualNovel.Pattern

/-- What was read so far between two operators. -/
structure ClassItems where
  span : Span
  items : List ClassSet := []

/-- Adds an item. -/
def ClassItems.push (u : ClassItems) (item : ClassSet) : ClassItems :=
  ⟨if u.items = [] then item.span else u.span.to item.span, u.items ++ [item]⟩

/-- The set of the items. -/
def ClassItems.set (u : ClassItems) : ClassSet :=
  match u.items with
  | [] => .empty u.span
  | [item] => item
  | items => .union u.span items

/-- Combines a set with the one before its operator, if there is one. -/
def combine (left : Option ClassSet) (right : ClassSet) : ClassSet :=
  match left with
  | none => right
  | some l => .combined (l.span.to right.span) l right

/-- The names of the classes of ASCII. -/
def asciiClasses : List String :=
  ["alnum", "alpha", "ascii", "blank", "cntrl", "digit", "graph", "lower", "print", "punct",
    "space", "upper", "word", "xdigit"]

/-- A class of ASCII, from its opening bracket, if one stands there. -/
def asciiClass? (c : Cursor) : Option (ClassSet × Cursor) := do
  let start := c.position
  let c ← c.after? "[:"
  let (negated, c) := match c.after? "^" with
    | some c => (true, c)
    | none => (false, c)
  let name := c.rest.takeWhile (· ≠ ':')
  let c ← (c.advanceBy name.length).after? ":]"
  if asciiClasses.contains (String.ofList name) then some (.ascii (c.since start) negated, c)
  else none

/-- What stands for a character or a class between brackets: an escape, or any character. -/
def readClassPart (c : Cursor) : Except Fault (Pattern × Cursor) :=
  match c.rest with
  | '\\' :: _ => readEscape c
  | ch :: _ => .ok (.literal ⟨c.charSpan, ch, false⟩, c.advance)
  | [] => .ok (.empty c.span, c)

/-- The item that a part stands for. -/
def itemOf : Pattern → Except Fault ClassSet
  | .literal l => .ok (.literal l)
  | .short s negated kind => .ok (.short s negated kind)
  | .property s p => .ok (.property s p)
  | p => refuse .classEscape p.span

/-- The character at an end of a range. -/
def endOf : Pattern → Except Fault Literal
  | .literal l => .ok l
  | p => refuse .rangeEnd p.span

/-- A part, or two with a dash between them as a range. The dash stands for itself before
the closing bracket, and two of them are an operator. -/
def readItem (opening : Span) (c : Cursor) : Except Fault (ClassSet × Cursor) := do
  let (low, c) ← readClassPart c
  let c := c.skip
  match c.rest with
  | [] => refuse .classUnclosed opening
  | ch :: _ =>
    if ch ≠ '-' ∨ c.peek? = some ']' ∨ c.peek? = some '-' then pure (← itemOf low, c)
    else if c.next.rest = [] then refuse .classUnclosed opening
    else
      let (high, c) ← readClassPart c.next
      let span := low.span.to high.span
      let l ← endOf low
      let h ← endOf high
      if l.char ≤ h.char then pure (.range span l h, c) else refuse .rangeOrder span

/-- The operators between lists. -/
def operators : List String := ["&&", "--", "~~"]

/-- The dashes at the start of a class, which stand for themselves. -/
def readDashes (start : Position) : Nat → ClassItems → Cursor → Except Fault (ClassItems × Cursor)
  | 0, u, c => .ok (u, c)
  | fuel + 1, u, c =>
    if c.rest.head? ≠ some '-' then .ok (u, c)
    else if c.next.rest = [] then refuse .classUnclosed ⟨start, start⟩
    else readDashes start fuel (u.push (.literal ⟨c.charSpan, '-', false⟩)) c.next

/-- The start of a class, from its bracket: whether it is negated, and what stands for
itself only there. -/
def readOpening (c : Cursor) : Except Fault (Bool × ClassItems × Cursor) := do
  let start := c.position
  let c := c.next
  let negated := c.rest.head? = some '^'
  let c := if negated then c.next else c
  if c.rest = [] then refuse .classUnclosed (c.since start)
  else
    let (u, c) ← readDashes start c.rest.length ⟨c.span, []⟩ c
    if u.items = [] ∧ c.rest.head? = some ']' then
      if c.next.rest = [] then refuse .classUnclosed (c.next.since start)
      else pure (negated, u.push (.literal ⟨c.charSpan, ']', false⟩), c.next)
    else pure (negated, u, c)

mutual

/-- A class, from its opening bracket: where it stands, whether it is negated, and its set. -/
def readClass : Nat → Cursor → Except Fault ((Span × Bool × ClassSet) × Cursor)
  | 0, c => refuse .classUnclosed c.span
  | fuel + 1, c => do
    let (negated, u, inside) ← readOpening c
    let (set, after) ← readSet fuel (inside.since c.position) none u inside
    pure ((after.since c.position, negated, set), after)

/-- The rest of a class up to its closing bracket, after a set with an operator and the
items after that. -/
def readSet : Nat → Span → Option ClassSet → ClassItems → Cursor → Except Fault (ClassSet × Cursor)
  | 0, opening, _, _, _ => refuse .classUnclosed opening
  | fuel + 1, opening, left, u, c =>
    let c := c.skip
    match c.rest with
    | [] => refuse .classUnclosed opening
    | ch :: _ =>
      if ch = ']' then .ok (combine left u.set, c.advance)
      else if ch = '[' then
        match asciiClass? c with
        | some (item, c) => readSet fuel opening left (u.push item) c
        | none => do
          let ((span, negated, set), c) ← readClass fuel c
          readSet fuel opening left (u.push (.nested span negated set)) c
      else if let some after := operators.findSome? c.after? then
        readSet fuel opening (some (combine left u.set)) ⟨after.span, []⟩ after
      else do
        let (item, c) ← readItem opening c
        readSet fuel opening left (u.push item) c

end

end VisualNovel.Pattern
