import VisualNovel.Files.Tree
import VisualNovel.Script.Parse
import VisualNovel.Table

/-!
# The script library

Scripts are kept by title, the stem of their file. A title belongs to one file: the
same file may be loaded again and replaces its script, another file may not take the
title. A load that fails changes nothing.
-/

namespace VisualNovel

/-- A script with its title. -/
structure Script.Entry where
  title : String
  scenes : Block

/-- The scripts by title, the texts they were read from by path, and the path of the file
that each title belongs to. -/
structure Library where
  scripts : Table Script.Entry
  sources : Table String
  paths : Table String

/-- Why a script could not be loaded. -/
inductive LibraryError
  | unreadable (path : String) (cause : FileError)
  | unnamed (path : String)
  | titleTaken (title first second : String)
  deriving DecidableEq, Repr

/-- The wording of the error, without its cause. -/
def LibraryError.message : LibraryError → String
  | .unreadable path _ => "Failed to read script: " ++ Path.quoted path
  | .unnamed path => "Script path has no file name: " ++ Path.quoted path
  | .titleTaken title first second =>
    "Script title collision!\n  '" ++ title ++ "' is provided by:\n    1. " ++ Path.quoted first
      ++ "\n    2. " ++ Path.quoted second

/-- The wording of the error and of what caused it. -/
def LibraryError.fullMessage (e : LibraryError) : String :=
  match e with
  | .unreadable _ cause => e.message ++ ": " ++ cause.message
  | _ => e.message

namespace Library

/-- The library without scripts. -/
def empty : Library := ⟨.empty, .empty, .empty⟩

instance : Inhabited Library := ⟨empty⟩

/-- The script with a title. -/
def find? (l : Library) (title : String) : Option Script.Entry := l.scripts.find? title

/-- Why a path may not provide a title: another path provides it. -/
def collision? (l : Library) (title path : String) : Option LibraryError :=
  match l.paths.find? title with
  -- Paths are compared by their steps, so that doubled slashes make no difference.
  | some first =>
    if Path.parts first = Path.parts path then none else some (.titleTaken title first path)
  | none => none

/-- Loads a script from a path, given the outcome of reading it: the tables are written one
after the other. Answers the script or the failure, and the library as it is then. -/
def loadInPlace (l : Library) (path : String) (content : Except FileError String) :
    Except LibraryError Script.Entry × Library :=
  match content with
  | .error cause => (.error (.unreadable path cause), l)
  | .ok text =>
    match Path.stem? path with
    | none => (.error (.unnamed path), l)
    | some title =>
      match l.collision? title path with
      | some e => (.error e, l)
      | none =>
        let script : Script.Entry := ⟨title, Script.parse text.toList⟩
        let l := { l with paths := l.paths.insert title path }
        let l := { l with scripts := l.scripts.insert title script }
        let l := { l with sources := l.sources.insert path text }
        (.ok script, l)

/-- A script from a path and the library with it, given the outcome of reading it. -/
def load (l : Library) (path : String) (content : Except FileError String) :
    Except LibraryError (Script.Entry × Library) :=
  match l.loadInPlace path content with
  | (.ok script, l) => .ok (script, l)
  | (.error e, _) => .error e

/-- Whether the extension of a path is one of the given ones, in any ASCII case. -/
def hasExtension (extensions : List String) (path : String) : Bool :=
  (Path.extension? path).any fun e =>
    extensions.any fun x => x.toList.map Char.toLower == e.toList.map Char.toLower

/-- Loads scripts one after the other, up to the first that fails. Answers the library
with those loaded, their number, and the failure. -/
def loadEach (readText : String → Except FileError String) (l : Library) :
    List String → Library × Except LibraryError Nat
  | [] => (l, .ok 0)
  | path :: paths =>
    match l.loadInPlace path (readText path) with
    | (.error e, l) => (l, .error e)
    | (.ok _, l) =>
      let (l, count) := loadEach readText l paths
      (l, count.map (· + 1))

/-- Loads the files at or below a path that have one of the extensions. -/
def loadProject (l : Library) (files : FileTree) (root : String) (extensions : List String) :
    Library × Except LibraryError Nat :=
  loadEach files.readText l ((files.filesBelow root).filter (hasExtension extensions))

/-- The titles in order. -/
def titles (l : Library) : List String := l.scripts.keys.mergeSort

end Library

end VisualNovel
