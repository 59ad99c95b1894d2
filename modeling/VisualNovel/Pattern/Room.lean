import VisualNovel.Pattern.Property

/-!
# The room of patterns

A pattern is searched for by an automaton, one state for each byte of a character. The
states take room, those of a class beyond ASCII much, and a repetition with counts takes
the room of what it repeats again and again. `measure` finds the room of a pattern, or
the first part of it that has no meaning.
-/

namespace VisualNovel.Pattern

/-- The room of a pattern in bytes, and whether it matches between characters only. -/
structure Room where
  bytes : Nat
  isEmpty : Bool := false

/-- The room of one state. -/
def stateBytes : Nat := 32

/-- The room of a state between two others. -/
def branchBytes : Nat := stateBytes + 8

/-! ## Classes -/

/-- What a class holds: so many ranges of ASCII, and the room of what lies beyond. -/
structure Extent where
  ranges : Nat := 0
  beyond : Nat := 0

/-- What two classes hold together. -/
def Extent.with (e f : Extent) : Extent := ⟨e.ranges + f.ranges, e.beyond + f.beyond⟩

/-- The room of a class. -/
def Extent.room (e : Extent) : Room :=
  ⟨if e.ranges ≤ 1 ∧ e.beyond = 0 then stateBytes else stateBytes + 8 * e.ranges + e.beyond, false⟩

/-- What a class with a letter of its own holds. In Unicode there are many more word
characters than digits, and more digits than blanks. -/
def ShortClass.extent (kind : ShortClass) (unicode negated : Bool) : Extent :=
  if unicode then
    match kind, negated with
    | .digit, false => ⟨1, 5100⟩
    | .digit, true => ⟨2, 12700⟩
    | .blank, false => ⟨2, 600⟩
    | .blank, true => ⟨3, 1850⟩
    | .word, false => ⟨4, 49900⟩
    | .word, true => ⟨5, 46500⟩
  else ⟨4, 0⟩

/-- The names of properties that most letters, or most code points, have. -/
def vastNames : List String :=
  ["alpha", "alphabetic", "assigned", "c", "cn", "graphemebase", "grbase", "idc", "idcontinue",
    "ids", "idstart", "l", "letter", "lo", "other", "otherletter", "unassigned", "xidc",
    "xidcontinue", "xids", "xidstart"]

/-- The names of properties of one case, and of marks. -/
def wideNames : List String :=
  ["caseignorable", "changeswhencasefolded", "changeswhenlowercased", "changeswhentitlecased",
    "changeswhenuppercased", "ci", "combiningmark", "cwcf", "cwl", "cwt", "cwu",
    "graphemeextend", "grext", "ll", "lower", "lowercase", "lowercaseletter", "lu", "m", "mark",
    "mn", "nonspacingmark", "upper", "uppercase", "uppercaseletter"]

/-- The names of properties of numbers, signs and symbols. -/
def broadNames : List String :=
  ["cased", "casedletter", "changeswhencasemapped", "common", "cwcm", "dia", "diacritic", "emoji",
    "extendedpictographic", "extpict", "lc", "math", "mc", "n", "number", "otherpunctuation",
    "othersymbol", "p", "po", "punct", "punctuation", "s", "so", "spacingmark", "symbol", "term",
    "terminalpunctuation", "zyyy"]

/-- What a class of a property holds, roughly: the characters of a script, for instance,
lie in a few ranges, those of a case in many. -/
def Property.extent (p : Property) : Extent :=
  let name := match p with
    | .named name => plainName name
    | .valued _ value => plainName value
  ⟨2,
    if vastNames.contains name then 45000
    else if wideNames.contains name then 25000
    else if broadNames.contains name then 11000
    else 2500⟩

/-- What the complement of a few characters holds beyond ASCII. -/
def complementExtent : Extent := ⟨2, 950⟩

/-- What a range between two characters holds. -/
def rangeExtent (low high : Char) : Extent :=
  if high.toNat < 128 then ⟨1, 0⟩ else if low = high then ⟨0, 132⟩ else ⟨1, 500⟩

/-- Refuses what could match half a character, as bytes beyond ASCII do on their own. -/
def requireText (isText : Bool) (span : Span) : Except Fault Unit :=
  if isText then .ok () else refuse .notText span

/-- What a property holds. It is asked for in Unicode only. -/
def Property.extentAt (p : Property) (unicode : Bool) (span : Span) : Except Fault Extent :=
  if !unicode then refuse .unicodeForbidden span
  else match p.cause? with
    | some cause => refuse cause span
    | none => .ok p.extent

/-- What a character of a class holds. Without Unicode it is a byte of ASCII. -/
def Literal.extent (l : Literal) (unicode : Bool) : Except Fault Extent :=
  if unicode || l.char.toNat < 128 then .ok (rangeExtent l.char l.char)
  else refuse (if l.mayBeByte then .notText else .unicodeForbidden) l.span

mutual

/-- What a set holds. -/
def ClassSet.extent (unicode : Bool) : ClassSet → Except Fault Extent
  | .empty _ => .ok {}
  | .literal l => l.extent unicode
  | .range _ low high => do
    discard (low.extent unicode)
    discard (high.extent unicode)
    pure (rangeExtent low.char high.char)
  | .ascii span negated => do
    requireText (unicode || !negated) span
    pure (if negated then complementExtent else ⟨4, 0⟩)
  | .short span negated kind => do
    requireText (unicode || !negated) span
    pure (kind.extent unicode negated)
  | .property span p => p.extentAt unicode span
  | .nested span negated set => do
    let e ← ClassSet.extent unicode set
    requireText (unicode || !negated) span
    pure (if negated then e.with complementExtent else e)
  | .union _ items => ClassSet.extentOf unicode items
  | .combined _ left right => do
    pure ((← ClassSet.extent unicode left).with (← ClassSet.extent unicode right))

/-- What several sets hold together. -/
def ClassSet.extentOf (unicode : Bool) : List ClassSet → Except Fault Extent
  | [] => .ok {}
  | set :: rest => do
    pure ((← ClassSet.extent unicode set).with (← ClassSet.extentOf unicode rest))

end

/-! ## Patterns -/

/-- The room of a repetition. What is empty need not be repeated more than once. -/
def Room.repeated (r : Room) (least : Nat) (most : Option Nat) : Room :=
  let least := if r.isEmpty then min least 1 else least
  let most := if r.isEmpty then some (min (most.getD 1) 1) else most
  let bytes := match most with
    | none => max least 1 * r.bytes + branchBytes
    | some 0 => stateBytes
    | some most =>
      if least = most then most * r.bytes
      else most * r.bytes + (most - least) * branchBytes + 2 * stateBytes
  { r with bytes }

/-- The room of two patterns, one after the other. -/
def Room.then (r s : Room) : Room := ⟨r.bytes + s.bytes, r.isEmpty && s.isEmpty⟩

/-- The room of a character: a state for each of its bytes. -/
def Literal.room (l : Literal) (unicode : Bool) : Except Fault Room := do
  requireText (unicode || !l.mayBeByte || l.char.toNat < 128) l.span
  pure ⟨stateBytes * l.char.utf8Size, false⟩

mutual

/-- The room of a pattern, read with Unicode or without, and how what follows it in its
group is read. -/
def measure (unicode : Bool) : Pattern → Except Fault (Room × Bool)
  | .empty _ => .ok (⟨stateBytes, true⟩, unicode)
  | .flags _ fs => .ok (⟨0, true⟩, (fs.lookup .unicode).getD unicode)
  | .literal l => do pure (← l.room unicode, unicode)
  | .dot span => do
    requireText unicode span
    pure (⟨stateBytes + 1308, false⟩, unicode)
  | .boundary _ => .ok (⟨stateBytes, true⟩, unicode)
  | .short span negated kind => do
    requireText (unicode || !negated) span
    pure ((kind.extent unicode negated).room, unicode)
  | .property span p => do pure ((← p.extentAt unicode span).room, unicode)
  | .bracketed span negated set => do
    let e ← ClassSet.extent unicode set
    requireText (unicode || !negated) span
    pure ((if negated then e.with complementExtent else e).room, unicode)
  | .repeated _ least most p => do
    let (r, unicode) ← measure unicode p
    pure (r.repeated least most, unicode)
  | .group _ captures fs p => do
    let (r, _) ← measure ((fs.lookup .unicode).getD unicode) p
    pure (if captures then { r with bytes := r.bytes + 2 * stateBytes } else r, unicode)
  | .sequence _ items => measureAll Room.then unicode ⟨0, true⟩ items
  | .choice _ branches => do
    let (r, unicode) ← measureAll
      (fun r s => ⟨r.bytes + s.bytes + 4, r.isEmpty && s.isEmpty⟩) unicode
      ⟨2 * stateBytes, true⟩ branches
    pure (r, unicode)

/-- The room of several patterns, joined to some room one after the other. -/
def measureAll (join : Room → Room → Room) (unicode : Bool) (before : Room) :
    List Pattern → Except Fault (Room × Bool)
  | [] => .ok (before, unicode)
  | p :: rest => do
    let (r, unicode) ← measure unicode p
    measureAll join unicode (join before r) rest

end

/-- The room of the states around a pattern: they find where it starts and ends. -/
def frameBytes : Nat := 5 * stateBytes + 8

/-- The room an automaton may take. -/
def maxBytes : Nat := 10485760

end VisualNovel.Pattern
