import VisualNovel.Play.Pump
import VisualNovel.Files.Access

/-!
# Save slots

A slot is a numbered file in the folder for saves, which is made when it is missing.
-/

namespace VisualNovel

/-- The slots in a folder for saves. -/
def FileAccess.slots {m : Type → Type} [Monad m] (files : FileAccess m) (savePath : String) :
    SaveSlots m where
  write slot bytes := do
    files.ensureFolder savePath
    discard (files.write (slotPath savePath slot) bytes)
  read slot := do
    files.ensureFolder savePath
    pure (← files.read (slotPath savePath slot)).toOption

end VisualNovel
