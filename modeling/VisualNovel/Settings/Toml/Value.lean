import VisualNovel.Settings.Toml.Document

/-!
# Values of TOML

What a document says once it is complete, however its tables came to be. A table whose
first key is reserved for moments stands for a moment itself; `complete?` refuses a
document in which such a table holds none.
-/

namespace VisualNovel.Toml

/-- A value of a complete document. -/
inductive Value
  | scalar (s : Scalar)
  | list (items : List Value)
  | table (fields : List (String × Value))
  deriving Repr, Inhabited

/-- The key under which a table gives a moment as a text. -/
def momentKey : String := "$__toml_private_datetime"

/-- What a table gives under the key of moments. Nothing if another of its keys comes
first in the order of keys. -/
def momentField? (fs : Fields) : Option Toml :=
  if fs.all fun f => momentKey ≤ f.1 then fs.lookup momentKey else none

/-- The moment that a value gives: it must be written as a text. -/
def moment? : Toml → Option Moment
  | .scalar (.text s) => Moment.ofChars? s.toList
  | _ => none

/-- A table with the given values. One that stands for a moment has no values of its own. -/
def tableValue? (fs : Fields) (values : Option (List (String × Value))) : Option Value :=
  match momentField? fs with
  | some v => (moment? v).map fun m => .scalar (.moment m)
  | none => values.map .table

mutual

/-- A value with all values in it. -/
def complete? : Toml → Option Value
  | .scalar s => some (.scalar s)
  | .list items => (completeItems? items).map .list
  | .table _ fields => tableValue? fields (completeFields? fields)
  | .tables items => (completeTables? items).map .list

/-- The values of a list. -/
def completeItems? : List Toml → Option (List Value)
  | [] => some []
  | v :: rest => do pure ((← complete? v) :: (← completeItems? rest))

/-- The values of a table by key. -/
def completeFields? : List (String × Toml) → Option (List (String × Value))
  | [] => some []
  | (key, v) :: rest => do pure ((key, ← complete? v) :: (← completeFields? rest))

/-- The values of a list of tables. -/
def completeTables? : List (List (String × Toml)) → Option (List Value)
  | [] => some []
  | fs :: rest => do
    pure ((← tableValue? fs (completeFields? fs)) :: (← completeTables? rest))

end

/-- Reads a document. The document itself never stands for a moment. -/
def read? (cs : List Char) : Option (List (String × Value)) := (parse cs).bind completeFields?

end VisualNovel.Toml
