import VisualNovel.Stage.Assets
import VisualNovel.Files.Access

/-!
# The asset folder

Assets are kept in a folder of their own for each kind, at any depth below it.
-/

namespace VisualNovel

namespace AssetIndex

variable {m : Type → Type} [Monad m]

/-- The files below the folder of a kind. -/
def filesOfKind (files : FileAccess m) (root : String) (kind : AssetKind) :
    m (List (AssetKind × String)) := do
  let folder := Path.join root kind.folder
  if ← files.hasFolder folder then
    pure ((← files.filesBelow folder).map fun path => (kind, path))
  else pure []

/-- The index of the folders of all kinds below a root. -/
def ofFolder (files : FileAccess m) (root : String) : m AssetIndex := do
  pure (ofFiles (← AssetKind.all.mapM (filesOfKind files root)).flatten)

end AssetIndex

/-- The assets in a folder; every name is known where there is no such folder. -/
def Assets.ofFolder {m : Type → Type} [Monad m] (files : FileAccess m) (root : String) :
    m Assets := do
  if ← files.hasFolder root then pure (← AssetIndex.ofFolder files root).assets
  else pure Assets.any

end VisualNovel
