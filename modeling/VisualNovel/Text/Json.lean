/-!
# JSON

Values of JSON, and the form in which each item and each field has a line of its own,
indented by two blanks for each list or object around it.
-/

namespace VisualNovel

/-- A value of JSON, as far as scene trees need it. -/
inductive JsonValue
  | text (s : String)
  | natural (n : Nat)
  | list (items : List JsonValue)
  /-- Fields in the order they are written. -/
  | object (fields : List (String × JsonValue))
  deriving Repr, Inhabited

namespace JsonValue

/-- A character as it stands in quotes. -/
def quoteChar (c : Char) : List Char :=
  if c = '"' ∨ c = '\\' then ['\\', c]
  else if c = '\x08' then ['\\', 'b']
  else if c = '\x0c' then ['\\', 'f']
  else if c = '\n' then ['\\', 'n']
  else if c = '\r' then ['\\', 'r']
  else if c = '\t' then ['\\', 't']
  else if c.toNat < 32 then ['\\', 'u'] ++ (Nat.toDigits 16 c.toNat).leftpad 4 '0'
  else [c]

/-- A text in quotes. -/
def quote (s : String) : String := String.ofList ('"' :: s.toList.flatMap quoteChar ++ ['"'])

/-- Lines between two brackets, one level deeper than the brackets; nothing stands
between the brackets if there are no lines. -/
def bracket (opening closing : String) (depth : Nat) (lines : List String) : String :=
  if lines.isEmpty then opening ++ closing
  else
    let indent (n : Nat) := "\n" ++ String.ofList (List.replicate (2 * n) ' ')
    opening ++ indent (depth + 1) ++ ("," ++ indent (depth + 1)).intercalate lines
      ++ indent depth ++ closing

mutual

/-- The text of a value inside so many lists and objects. -/
def writeAt (depth : Nat) : JsonValue → String
  | text s => quote s
  | natural n => toString n
  | list items => bracket "[" "]" depth (itemLines (depth + 1) items)
  | object fields => bracket "\x7b" "\x7d" depth (fieldLines (depth + 1) fields)

/-- The texts of items. -/
def itemLines (depth : Nat) : List JsonValue → List String
  | [] => []
  | v :: vs => writeAt depth v :: itemLines depth vs

/-- The texts of fields. -/
def fieldLines (depth : Nat) : List (String × JsonValue) → List String
  | [] => []
  | (key, v) :: fs => (quote key ++ ": " ++ writeAt depth v) :: fieldLines depth fs

end

/-- The text of a value. -/
def write (v : JsonValue) : String := v.writeAt 0

end JsonValue

end VisualNovel
