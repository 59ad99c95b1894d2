import VisualNovel.Files.Path
import VisualNovel.Text.Utf8

/-!
# File trees

A tree of folders and files held in memory, with the operations a session needs on
it: reading, writing, making folders and listing files. Paths start at the top of the
tree. The folders above it and the root of the system are there too, and hold only what
was put into them.
-/

namespace VisualNovel

/-- Why an operation on files failed. -/
inductive FileError
  | notFound
  | notFolder
  | isFolder
  | exists
  | nameTooLong
  /-- A path holds the character that ends texts of the system. -/
  | brokenName
  | notText
  /-- Any other failure, in the words of the system. -/
  | other (reason : String)
  deriving DecidableEq, Repr

/-- The wording of the error. -/
def FileError.message : FileError → String
  | .notFound => "No such file or directory (os error 2)"
  | .exists => "File exists (os error 17)"
  | .notFolder => "Not a directory (os error 20)"
  | .isFolder => "Is a directory (os error 21)"
  | .nameTooLong => "File name too long (os error 36)"
  | .brokenName => "file name contained an unexpected NUL byte"
  | .notText => "stream did not contain valid UTF-8"
  | .other reason => reason

/-- The text in a file that was read. -/
def FileError.readText (bytes : List UInt8) : Except FileError String :=
  match Text.ofBytes? bytes with
  | some s => .ok s
  | none => .error .notText

/-- What stands at a place of a tree. -/
inductive FileEntry
  | folder
  | file (content : List UInt8)
  deriving DecidableEq, Repr

/-- A folder from which places are named. -/
inductive Base
  /-- So many folders above the top of the tree. -/
  | above (levels : Nat)
  | root
  deriving DecidableEq, Repr

/-- The folder around a base. The root lies in itself. -/
def Base.around : Base → Base
  | .above levels => .above (levels + 1)
  | .root => .root

/-- A place in a tree: the names on the way from a base. -/
structure Place where
  base : Base
  names : List String
  deriving DecidableEq, Repr

namespace Place

/-- The top of the tree. -/
def top : Place := ⟨.above 0, []⟩

/-- The place with a name in a folder. -/
def child (p : Place) (name : String) : Place := { p with names := p.names ++ [name] }

/-- The folder around a place. -/
def around (p : Place) : Place :=
  if p.names = [] then { p with base := p.base.around } else { p with names := p.names.dropLast }

/-- The names on the way from a place to one below it. -/
def wayTo? (p below : Place) : Option (List String) :=
  if p.base = below.base ∧ p.names.isPrefixOf below.names ∧ p.names ≠ below.names then
    some (below.names.drop p.names.length)
  else none

end Place

/-- A tree of folders and files: what stands at each place that is no base. -/
structure FileTree where
  entries : List (Place × FileEntry)

namespace FileTree

/-- The tree without entries. -/
def empty : FileTree := ⟨[]⟩

instance : Inhabited FileTree := ⟨empty⟩

/-- What stands at a place. Bases are folders. -/
def entry? (t : FileTree) (place : Place) : Option FileEntry :=
  if place.names = [] then some .folder else (t.entries.find? (·.1 == place)).map Prod.snd

/-- Puts an entry at a place. -/
def put (t : FileTree) (place : Place) (e : FileEntry) : FileTree :=
  ⟨t.entries.filter (·.1 != place) ++ [(place, e)]⟩

/-- How many bytes a name may have. -/
def maxName : Nat := 255

/-- How many bytes a path may have. -/
def maxPath : Nat := 4095

/-- The steps of a path, unless no system takes it. -/
def stepsOf (path : String) : Except FileError (List PathPart) :=
  if path.toList.contains '\x00' then .error .brokenName
  else if path = "" then .error .notFound
  else if path.utf8ByteSize > maxPath then .error .nameTooLong
  else .ok (Path.steps path)

/-- Follows the steps of a path from a place. Each step leaves a folder; only the last
one may lead to a place that does not exist. -/
def follow (t : FileTree) (place : Place) : List PathPart → Except FileError Place
  | [] => .ok place
  | part :: parts =>
    match t.entry? place with
    | none => .error .notFound
    | some (.file _) => .error .notFolder
    | some .folder =>
      match part with
      | .here => follow t place parts
      | .name n =>
        let name := String.ofList n
        if name.utf8ByteSize > maxName then .error .nameTooLong
        else follow t (place.child name) parts
      | .parent => follow t place.around parts
      | .root => follow t ⟨.root, []⟩ parts

/-- The place a path leads to. A path that ends in a slash leads to no file. -/
def locate (t : FileTree) (path : String) : Except FileError Place := do
  let place ← t.follow .top (← stepsOf path)
  match t.entry? place with
  | some (.file _) => if Path.endsInSlash path then .error .notFolder else .ok place
  | _ => .ok place

/-- The place a path leads to as the path of a file that may have to be made. Before a
slash at its end only the folder around it is looked at. -/
def locateFile (t : FileTree) (path : String) : Except FileError Place := do
  let steps ← stepsOf path
  if Path.endsInSlash path then
    discard (t.follow .top (steps.dropLast ++ [.here]))
    .error .isFolder
  else t.follow .top steps

/-- What a path leads to. -/
def look (t : FileTree) (path : String) : Except FileError FileEntry := do
  let place ← t.locate path
  match t.entry? place with
  | some e => .ok e
  | none => .error .notFound

/-- The bytes of a file. -/
def read (t : FileTree) (path : String) : Except FileError (List UInt8) := do
  match ← t.look path with
  | .file content => .ok content
  | .folder => .error .isFolder

/-- The text of a file. -/
def readText (t : FileTree) (path : String) : Except FileError String := do
  FileError.readText (← t.read path)

/-- Whether a path leads to something. -/
def hasPath (t : FileTree) (path : String) : Bool := (t.look path).isOk

/-- Whether a path leads to a folder. -/
def hasFolder (t : FileTree) (path : String) : Bool :=
  match t.look path with
  | .ok .folder => true
  | _ => false

/-- Writes a file in a folder that exists. -/
def write (t : FileTree) (path : String) (content : List UInt8) : Except FileError FileTree := do
  let place ← t.locateFile path
  match t.entry? place with
  | some .folder => .error .isFolder
  | _ => .ok (t.put place (.file content))

/-- Makes an empty file where there is none. -/
def openToAppend (t : FileTree) (path : String) : Except FileError FileTree :=
  match t.look path with
  | .ok (.file _) => .ok t
  | _ => t.write path []

/-- Makes a folder in one that exists, unless something stands in its place. -/
def makeFolder (t : FileTree) (path : String) : Except FileError FileTree := do
  let place ← t.follow .top (← stepsOf path)
  match t.entry? place with
  | some _ => .error .exists
  | none => .ok (t.put place .folder)

/-- The paths of the files at or below a path, each as a continuation of it. -/
def filesBelow (t : FileTree) (path : String) : List String :=
  match t.locate path with
  | .error _ => []
  | .ok place =>
    match t.entry? place with
    | some (.file _) => [path]
    | some .folder =>
      t.entries.filterMap fun (p, e) =>
        match e with
        | .folder => none
        | .file _ => (place.wayTo? p).map fun names => names.foldl Path.join path
    | none => []

end FileTree

end VisualNovel
