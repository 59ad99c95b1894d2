import VisualNovel.Settings.Read
import VisualNovel.Files.Access

/-!
# The settings in force

Settings are taken from a text or a file, once. Until then, and where a file cannot be
read, the defaults are in force.
-/

namespace VisualNovel

/-- Why settings were not taken. -/
inductive SettingsError
  | alreadyTaken
  | unreadable (path : String) (cause : FileError)
  deriving DecidableEq, Repr

/-- The wording of the error, without its cause. -/
def SettingsError.message : SettingsError → String
  | .alreadyTaken => "Config already initialized"
  | .unreadable path _ => "reading config " ++ Path.quoted path

/-- The wording of the error and of what caused it. -/
def SettingsError.fullMessage (e : SettingsError) : String :=
  match e with
  | .unreadable _ cause => e.message ++ ": " ++ cause.message
  | .alreadyTaken => e.message

/-- The settings that were taken, if any. -/
structure SettingsStore where
  taken : Option Settings
  deriving DecidableEq, Repr

namespace SettingsStore

/-- The store before settings are taken. -/
def empty : SettingsStore := ⟨none⟩

instance : Inhabited SettingsStore := ⟨empty⟩

/-- The settings in force. -/
def current (s : SettingsStore) : Settings := s.taken.getD {}

/-- Takes the settings in a text. -/
def take (s : SettingsStore) (text : String) : Except SettingsError SettingsStore :=
  match s.taken with
  | some _ => .error .alreadyTaken
  | none => .ok ⟨some (.ofText text)⟩

/-- Takes the settings in a file; one that is missing counts as empty. -/
def takeFile {m : Type → Type} [Monad m] (files : FileAccess m) (s : SettingsStore)
    (path : String) : m (Except SettingsError SettingsStore) := do
  if ← files.hasPath path then
    match ← files.readText path with
    | .ok text => pure (s.take text)
    | .error cause => pure (.error (.unreadable path cause))
  else pure (s.take "")

end SettingsStore

end VisualNovel
