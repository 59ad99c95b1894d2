import VisualNovel.Files.Path

/-!
# Assets

Pictures and sounds are found by kind and name. What a player needs is only the
answer, the locator of an asset, so a resolver is a function. An index of files
answers with the file of the right name whose extension ranks first.
-/

namespace VisualNovel

/-- The kinds of assets. -/
inductive AssetKind
  | background
  | music
  | sound
  | character
  | image
  | system
  deriving DecidableEq, Repr

namespace AssetKind

/-- All kinds, in the order their folders are read. -/
def all : List AssetKind := [background, music, sound, character, image, system]

/-- The folder of a kind. -/
def folder : AssetKind → String
  | background => "bg"
  | music => "bgm"
  | sound => "se"
  | character => "characters"
  | image => "image"
  | system => "system"

/-- The kind kept in a folder. -/
def ofFolder? (s : String) : Option AssetKind := all.find? fun k => k.folder == s

end AssetKind

/-- Answers the locator of an asset, if it is known. -/
abbrev Assets := AssetKind → String → Option String

namespace Assets

/-- The locator of a named asset: its folder and its name. -/
def locator (kind : AssetKind) (name : String) : String := kind.folder ++ "/" ++ name

/-- Every name is known. -/
def any : Assets := fun kind name => some (locator kind name)

/-- Only the listed names are known. -/
def ofList (known : List (AssetKind × String)) : Assets := fun kind name =>
  if (kind, name) ∈ known then some (locator kind name) else none

end Assets

/-- The extensions of assets, the preferred one first. -/
def assetExtensions : List String := ["png", "jpg", "jpeg", "ogg", "mp3", "wav"]

/-- The rank of the extension of a path, in any case, if it is one of an asset. -/
def assetRank? (path : String) : Option Nat :=
  (Path.extension? path).bind fun e =>
    assetExtensions.findIdx? (· == String.ofList (e.toList.map Char.toLower))

/-- A file that can be found: its kind, its name, and where it is. -/
structure IndexedAsset where
  kind : AssetKind
  name : String
  path : String
  deriving DecidableEq, Repr

/-- The files that can be found, at most one for a kind and name. -/
abbrev AssetIndex := List IndexedAsset

namespace AssetIndex

/-- Where the asset of a kind and name is. -/
def find? (index : AssetIndex) (kind : AssetKind) (name : String) : Option String :=
  (List.find? (fun a => a.kind == kind && a.name == name) index).map (·.path)

/-- The index with the path of a kind and name replaced. -/
def replace (index : AssetIndex) (kind : AssetKind) (name path : String) : AssetIndex :=
  index.map fun a => if a.kind = kind ∧ a.name = name then { a with path := path } else a

/-- Adds a file. It takes the place of one with the same name only if its extension
ranks before that one's; files of other extensions are left out. -/
def add (index : AssetIndex) (kind : AssetKind) (path : String) : AssetIndex :=
  match assetRank? path, Path.stem? path with
  | some rank, some name =>
    match index.find? kind name with
    | none => index ++ [⟨kind, name, path⟩]
    | some existing =>
      if (assetRank? existing).all (rank < ·) then index.replace kind name path else index
  | _, _ => index

/-- The index of files, added one after the other. -/
def ofFiles (files : List (AssetKind × String)) : AssetIndex :=
  files.foldl (fun index f => index.add f.1 f.2) []

/-- The resolver that answers from an index. -/
def assets (index : AssetIndex) : Assets := index.find?

end AssetIndex

end VisualNovel
