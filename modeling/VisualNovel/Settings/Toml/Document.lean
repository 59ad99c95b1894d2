import VisualNovel.Settings.Toml.Scalar

/-!
# Documents of TOML

A document is a table, written as pairs of keys and values under headers. Keys with
dots reach into tables of their own. A table can be defined once: `define`, `append`
and `insert` refuse what would define one again or extend what is complete.
-/

namespace VisualNovel

/-- How a table came to be. -/
inductive TomlForm
  /-- By a header of its own, or as the whole document. -/
  | header
  /-- As part of the path of a header. -/
  | passage
  /-- By a key with dots. -/
  | dotted
  /-- In braces, complete where it ends. -/
  | inline
  deriving DecidableEq, Repr

/-- A value of a document. -/
inductive Toml
  | scalar (s : Toml.Scalar)
  | list (items : List Toml)
  | table (form : TomlForm) (fields : List (String × Toml))
  /-- A list of tables given by headers in double brackets. -/
  | tables (items : List (List (String × Toml)))
  deriving Repr, Inhabited

namespace Toml

/-- The values of a table by key. -/
abbrev Fields := List (String × Toml)

/-- The fields with the value of a key replaced. -/
def setField (key : String) (v : Toml) (fs : Fields) : Fields :=
  fs.map fun f => if f.1 = key then (key, v) else f

/-- Changes the fields of the last table of a list. -/
def changeLast (f : Fields → Option Fields) : List Fields → Option (List Fields)
  | [] => none
  | [fs] => (f fs).map fun fs => [fs]
  | fs :: rest => (changeLast f rest).map (fs :: ·)

/-- Adds a value under a key with dots. The tables on the way must have been begun by
such keys, or be made by this one. -/
def insert (v : Toml) : List String → Fields → Option Fields
  | [], _ => none
  | [key], fs => if (fs.lookup key).isSome then none else some (fs ++ [(key, v)])
  | key :: keys, fs =>
    match fs.lookup key with
    | none => (insert v keys []).map fun sub => fs ++ [(key, .table .dotted sub)]
    | some (.table .dotted sub) =>
      (insert v keys sub).map fun sub => setField key (.table .dotted sub) fs
    -- A table that a header passed through may be gone through, not added to.
    | some (.table .passage sub) =>
      if keys.length = 1 then none
      else (insert v keys sub).map fun sub => setField key (.table .passage sub) fs
    | some (.tables items) =>
      if keys.length = 1 then none
      else (changeLast (insert v keys) items).map fun items => setField key (.tables items) fs
    | some _ => none

/-- Goes down the path of a header and changes the fields of the table it ends at by
`f`, which is given the last key. Tables that are missing on the way are made. -/
def descend (f : String → Fields → Option Fields) : List String → Fields → Option Fields
  | [], _ => none
  | [key], fs => f key fs
  | key :: keys, fs =>
    match fs.lookup key with
    | none => (descend f keys []).map fun sub => fs ++ [(key, .table .passage sub)]
    | some (.table form sub) =>
      if form = .inline then none
      else (descend f keys sub).map fun sub => setField key (.table form sub) fs
    | some (.tables items) =>
      (changeLast (descend f keys) items).map fun items => setField key (.tables items) fs
    | some _ => none

/-- Defines a table by its header. -/
def define (key : String) (fs : Fields) : Option Fields :=
  match fs.lookup key with
  | none => some (fs ++ [(key, .table .header [])])
  | some (.table .passage sub) => some (setField key (.table .header sub) fs)
  | some _ => none

/-- Adds a table to a list of tables. -/
def append (key : String) (fs : Fields) : Option Fields :=
  match fs.lookup key with
  | none => some (fs ++ [(key, .tables [[]])])
  | some (.tables items) => some (setField key (.tables (items ++ [[]])) fs)
  | some _ => none

/-- Changes the fields of the table that a header stands for. -/
def inside (f : Fields → Option Fields) (key : String) (fs : Fields) : Option Fields :=
  match fs.lookup key with
  | some (.table form sub) => (f sub).map fun sub => setField key (.table form sub) fs
  | some (.tables items) => (changeLast f items).map fun items => setField key (.tables items) fs
  | _ => none

/-! ## Grammar -/

/-- The text after a comment, if one stands here. None if it holds a control character. -/
def skipComment : List Char → Option (List Char)
  | '#' :: cs =>
    let rest := cs.dropWhile isPlain
    if rest = [] ∨ (afterNewline? rest).isSome then some rest else none
  | cs => some cs

/-- The text after the end of a line, with a comment before it. -/
def endLine (cs : List Char) : Option (List Char) := do
  let rest ← skipComment (skipSpace cs)
  if rest = [] then some [] else afterNewline? rest

/-- The text after blanks, line feeds and comments. -/
def skipLines : Nat → List Char → Option (List Char)
  | 0, cs => some cs
  | fuel + 1, cs => do
    let rest ← skipComment (skipSpace cs)
    match afterNewline? rest with
    | some rest => skipLines fuel rest
    | none => pure rest

def isBareKeyChar (c : Char) : Bool := c.isAlphanum || c = '_' || c = '-'

/-- One part of a key. -/
def readKeyPart (cs : List Char) : Option (String × List Char) :=
  if cs.head? = some '"' ∨ cs.head? = some '\'' then
    (readLineString cs).map fun (s, rest) => (String.ofList s, rest)
  else
    let key := cs.takeWhile isBareKeyChar
    if key = [] then none else some (String.ofList key, cs.dropWhile isBareKeyChar)

/-- How deep values may nest, and keys reach. -/
def maxDepth : Nat := 80

/-- A key of at most so many parts with dots, blanks allowed around them. -/
def readKeyParts : Nat → List Char → Option (List String × List Char)
  | 0, _ => none
  | parts + 1, cs => do
    let (key, rest) ← readKeyPart (skipSpace cs)
    match skipSpace rest with
    | '.' :: rest => (readKeyParts parts rest).map fun (keys, rest) => (key :: keys, rest)
    | rest => pure ([key], rest)

/-- A key with dots. -/
def readKey (cs : List Char) : Option (List String × List Char) := readKeyParts maxDepth cs

mutual

/-- A value. Lists and tables in braces may go over several lines and end with a comma. -/
def readValue (depth : Nat) : Nat → List Char → Option (Toml × List Char)
  | 0, _ => none
  | fuel + 1, cs =>
    match cs with
    | '[' :: rest =>
      if maxDepth ≤ depth then none
      else (readItems (depth + 1) fuel rest).map fun (items, rest) => (.list items, rest)
    | '\x7b' :: rest =>
      if maxDepth ≤ depth then none
      else (readPairs (depth + 1) fuel rest []).map fun (fs, rest) => (.table .inline fs, rest)
    | _ => (readScalar cs).map fun (s, rest) => (.scalar s, rest)

/-- The rest of a list. -/
def readItems (depth : Nat) : Nat → List Char → Option (List Toml × List Char)
  | 0, _ => none
  | fuel + 1, cs => do
    let cs ← skipLines cs.length cs
    match cs with
    | ']' :: rest => pure ([], rest)
    | _ =>
      let (v, rest) ← readValue depth fuel cs
      let rest ← skipLines rest.length rest
      match rest with
      | ']' :: rest => pure ([v], rest)
      | ',' :: rest =>
        let (vs, rest) ← readItems depth fuel rest
        pure (v :: vs, rest)
      | _ => none

/-- The rest of a table in braces, after the fields read so far. -/
def readPairs (depth : Nat) : Nat → List Char → Fields → Option (Fields × List Char)
  | 0, _, _ => none
  | fuel + 1, cs, fs => do
    let cs ← skipLines cs.length cs
    match cs with
    | '\x7d' :: rest => pure (fs, rest)
    | _ =>
      let (keys, rest) ← readKey cs
      let (v, rest) ← readValue depth fuel (skipSpace (← after? '=' rest))
      let fs ← insert v keys fs
      let rest ← skipLines rest.length rest
      match rest with
      | '\x7d' :: rest => pure (fs, rest)
      | ',' :: rest => readPairs depth fuel rest fs
      | _ => none

end

/-- The rest of a header: its key up to the closing bracket. -/
def readHeader (cs : List Char) : Option (List String × List Char) := do
  let (keys, rest) ← readKey cs
  let rest ← after? ']' rest
  pure (keys, rest)

/-- One statement of a document, read at the start of a line that is not empty: the
fields with it, the header now in force, and the text after it. -/
def readStatement (fs : Fields) (header : List String) (cs : List Char) :
    Option (Fields × List String × List Char) :=
  match cs with
  | '[' :: '[' :: rest => do
    let (keys, rest) ← readHeader rest
    let rest ← endLine (← after? ']' rest)
    pure (← descend append keys fs, keys, rest)
  | '[' :: rest => do
    let (keys, rest) ← readHeader rest
    let rest ← endLine rest
    pure (← descend define keys fs, keys, rest)
  | _ => do
    let (keys, rest) ← readKey cs
    -- Each level and each item takes a character, and two calls at most.
    let (v, rest) ← readValue 0 (2 * cs.length + 2) (skipSpace (← after? '=' rest))
    let rest ← endLine rest
    let fs ← if header = [] then insert v keys fs
      else descend (inside (insert v keys)) header fs
    pure (fs, header, rest)

/-- The statements of a document. -/
def readStatements : Nat → Fields → List String → List Char → Option Fields
  | 0, _, _, _ => none
  | fuel + 1, fs, header, cs => do
    let cs ← skipLines cs.length cs
    if cs = [] then pure fs
    else
      let (fs, header, rest) ← readStatement fs header cs
      readStatements fuel fs header rest

/-- Reads a document. A byte order mark in front of it is passed over. -/
def parse (cs : List Char) : Option Fields :=
  let cs := match cs with
    | '\ufeff' :: rest => rest
    | _ => cs
  readStatements (cs.length + 1) [] [] cs

end Toml

end VisualNovel
