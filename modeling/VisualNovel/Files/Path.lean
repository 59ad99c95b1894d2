import VisualNovel.Text.Trim
import VisualNovel.Text.UnprintableTable

/-!
# Paths

A path is text; its parts lie between slashes. Two paths name the same place if
their parts agree, whatever slashes stand between them. `stem?` and `extension?` split
the name of a file at its last dot.
-/

namespace VisualNovel

/-- One step of a path. -/
inductive PathPart
  | root
  | here
  | parent
  | name (n : List Char)
  deriving DecidableEq, Repr

namespace Path

/-- The step that a piece between slashes names, unless it is empty. -/
def step? (piece : List Char) : Option PathPart :=
  if piece = [] then none
  else if piece = ['.'] then some .here
  else if piece = ['.', '.'] then some .parent
  else some (.name piece)

/-- The steps of a path as they are written, one after the other. -/
def steps (path : String) : List PathPart :=
  match Text.splitBy (· = '/') path.toList with
  | [] :: [] => []
  | [] :: pieces => .root :: pieces.filterMap step?
  | pieces => pieces.filterMap step?

/-- The steps of a path that count when paths are compared: a single dot counts only at
the start. -/
def parts (path : String) : List PathPart :=
  match steps path with
  | [] => []
  | first :: rest => first :: rest.filter (· ≠ .here)

/-- Whether a slash ends a path. -/
def endsInSlash (path : String) : Bool := path.toList.getLast? = some '/'

/-- The path with certain steps. -/
def ofParts (parts : List PathPart) : String :=
  let piece (part : PathPart) : List Char :=
    match part with
    | .root => []
    | .here => ['.']
    | .parent => ['.', '.']
    | .name n => n
  if parts = [.root] then "/" else String.ofList (List.intercalate ['/'] (parts.map piece))

/-- The paths above a path, the nearest first, each one step shorter than the one before. -/
def above (path : String) : List String :=
  ((List.range (parts path).length).drop 1).reverse.map fun n => ofParts ((parts path).take n)

/-- The name of the file a path leads to, unless it leads to no named place. -/
def fileName? (path : String) : Option (List Char) :=
  match (parts path).getLast? with
  | some (.name n) => some n
  | _ => none

/-- A file name split at its last dot, if something stands before that dot. -/
def splitName (n : List Char) : List Char × Option (List Char) :=
  if '.' ∈ n then
    let ext := (n.reverse.takeWhile (· ≠ '.')).reverse
    let stem := n.take (n.length - ext.length - 1)
    if stem = [] then (n, none) else (stem, some ext)
  else (n, none)

/-- The name of the file without its extension. -/
def stem? (path : String) : Option String :=
  (fileName? path).map fun n => String.ofList (splitName n).1

/-- What follows the last dot of the file name. -/
def extension? (path : String) : Option String :=
  (fileName? path).bind fun n => (splitName n).2.map String.ofList

/-- A path seen from a folder. -/
def join (folder path : String) : String :=
  if path.toList.head? = some '/' then path
  else if folder = "" ∨ folder.toList.getLast? = some '/' then folder ++ path
  else folder ++ "/" ++ path

/-- A character as it stands in quotes. -/
def quoteChar (c : Char) : List Char :=
  if c = '"' ∨ c = '\\' then ['\\', c]
  else if c = '\n' then ['\\', 'n']
  else if c = '\r' then ['\\', 'r']
  else if c = '\t' then ['\\', 't']
  else if c = '\x00' then ['\\', '0']
  else if c.toNat < 32 ∨ Text.unprintableRanges.any (fun (lo, hi) => lo ≤ c.toNat && c.toNat ≤ hi)
  then ['\\', 'u', '\x7b'] ++ Nat.toDigits 16 c.toNat ++ ['\x7d']
  else [c]

/-- A path in quotes, with escapes for quotes, backslashes and what does not print. -/
def quoted (path : String) : String :=
  String.ofList ('"' :: path.toList.flatMap quoteChar ++ ['"'])

end Path

end VisualNovel
