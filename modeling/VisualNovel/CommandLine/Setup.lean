import VisualNovel.Settings.Store
import VisualNovel.Settings.Write
import VisualNovel.Settings.LogFilter

/-!
# Setting up

Before a command runs, the settings file is written if it is missing, the settings are
taken from it, and the log file is opened. What fails is reported and passed over.
-/

namespace VisualNovel

/-- The surroundings of a command: files, a place to print to, and one to report to. -/
structure Host (m : Type → Type) where
  files : FileAccess m
  print : String → m Unit
  report : String → m Unit

namespace Host

variable {m : Type → Type} [Monad m]

/-- The file with the settings. -/
def settingsPath : String := "config.toml"

/-- Reports a line. -/
def reportLine (h : Host m) (line : String) : m Unit := h.report (line ++ "\n")

/-- Prints a line. -/
def printLine (h : Host m) (line : String) : m Unit := h.print (line ++ "\n")

/-- Writes the default settings where no settings file is. -/
def ensureSettings (h : Host m) : m Unit := do
  unless ← h.files.hasPath settingsPath do
    h.reportLine ("Creating default configuration at '" ++ settingsPath ++ "'...")
    match ← h.files.write settingsPath (Text.toBytes (Settings.write {})) with
    | .ok _ => h.reportLine "Config file created successfully."
    | .error e => h.reportLine ("Failed to write config file: " ++ e.message)

/-- Takes the settings from their file. -/
def takeSettings (h : Host m) : m SettingsStore := do
  match ← SettingsStore.empty.takeFile h.files settingsPath with
  | .ok store => pure store
  | .error e =>
    h.reportLine ("Config load warning: " ++ e.fullMessage)
    pure .empty

/-- Opens the log file, in a folder that is made when it is missing. -/
def openLog (h : Host m) (s : SystemSettings) : m Unit := do
  (LogFilter.problems s.logLevel).forM fun problem =>
    h.reportLine ("warning: " ++ problem ++ ", ignoring it")
  match ← h.files.makeFolders s.logPath with
  | .ok _ => pure ()
  | .error e => h.reportLine ("Failed to create log dir: " ++ e.message)
  let path := Path.join s.logPath "novella.log"
  match ← h.files.openToAppend path with
  | .ok _ => pure ()
  | .error e => h.reportLine ("Failed to open log file " ++ Path.quoted path ++ ": " ++ e.message)

/-- Sets up, and answers the settings in force. -/
def setUp (h : Host m) : m Settings := do
  h.ensureSettings
  let settings := (← h.takeSettings).current
  h.openLog settings.system
  pure settings

end Host

end VisualNovel
