import VisualNovel.Files.Tree

/-!
# Access to files

What a session asks of the files around it, whatever holds them. A tree in memory
grants it, and so does a disk.
-/

namespace VisualNovel

/-- Access to files by path. -/
structure FileAccess (m : Type → Type) where
  hasPath : String → m Bool
  hasFolder : String → m Bool
  read : String → m (Except FileError (List UInt8))
  /-- Writes a file in a folder that exists. -/
  write : String → List UInt8 → m (Except FileError Unit)
  /-- Opens a file to add to it, and makes an empty one if there is none. -/
  openToAppend : String → m (Except FileError Unit)
  /-- Makes a folder in one that exists, unless something stands in its place. -/
  makeFolder : String → m (Except FileError Unit)
  /-- The files at or below a path, each as a continuation of it. -/
  filesBelow : String → m (List String)

namespace FileAccess

variable {m : Type → Type} [Monad m]

/-- The text of a file. -/
def readText (files : FileAccess m) (path : String) : m (Except FileError String) := do
  pure ((← files.read path).bind FileError.readText)

/-- What an attempt to make a folder came to: a folder that was there before will do. -/
def orFolder (files : FileAccess m) (path : String) (outcome : Except FileError Unit) :
    m (Except FileError Unit) := do
  match outcome with
  | .ok () => pure (.ok ())
  | .error e => if ← files.hasFolder path then pure (.ok ()) else pure (.error e)

/-- Makes the first of some folders, each of which lies in the one after it. Those after
it are made only if it has no folder to lie in. -/
def makeChain (files : FileAccess m) : List String → m (Except FileError Unit)
  | [] => pure (.ok ())
  | path :: above => do
    match ← files.makeFolder path with
    | .error .notFound =>
      match ← makeChain files above with
      | .ok () => files.orFolder path (← files.makeFolder path)
      | .error e => pure (.error e)
    | outcome => files.orFolder path outcome

/-- Makes the folders of a path that are missing. What was made stays when it fails. -/
def makeFolders (files : FileAccess m) (path : String) : m (Except FileError Unit) :=
  if path = "" then pure (.ok ()) else files.makeChain (path :: Path.above path)

/-- Makes a folder that is missing, if it can be made. -/
def ensureFolder (files : FileAccess m) (path : String) : m Unit := do
  unless ← files.hasPath path do
    discard (files.makeFolders path)

end FileAccess

namespace FileTree

/-- Changes the tree beside some other state, unless the change fails. -/
def attempt {σ : Type} (change : FileTree → Except FileError FileTree) :
    StateM (σ × FileTree) (Except FileError Unit) :=
  modifyGet fun (s, t) =>
    match change t with
    | .ok t => (.ok (), s, t)
    | .error e => (.error e, s, t)

/-- Asks something of the tree beside some other state. -/
def ask {σ α : Type} (question : FileTree → α) : StateM (σ × FileTree) α :=
  modifyGet fun (s, t) => (question t, s, t)

/-- Access to the files of a tree, beside any other state. -/
def access {σ : Type} : FileAccess (StateM (σ × FileTree)) where
  hasPath path := ask (·.hasPath path)
  hasFolder path := ask (·.hasFolder path)
  read path := ask (·.read path)
  write path content := attempt (·.write path content)
  openToAppend path := attempt (·.openToAppend path)
  makeFolder path := attempt (·.makeFolder path)
  filesBelow path := ask (·.filesBelow path)

end FileTree

end VisualNovel
