import VisualNovel.Settings.Basic

/-!
# Writing settings

Settings are written as a document of TOML with a table for each section. Lists take a
line for each item.
-/

namespace VisualNovel

namespace Toml

/-- A character as it stands in quotes. -/
def quoteChar (c : Char) : List Char :=
  if c = '"' ∨ c = '\\' then ['\\', c]
  else if c.toNat < 32 ∨ c.toNat = 127 then
    ['\\', 'u'] ++ (Nat.toDigits 16 c.toNat).leftpad 4 '0'
  else [c]

/-- A text in quotes. -/
def quote (s : String) : String := String.ofList ('"' :: s.toList.flatMap quoteChar ++ ['"'])

/-- A list of texts, each on a line of its own. -/
def quoteList (items : List String) : String :=
  if items.isEmpty then "[]"
  else "[\n" ++ String.join (items.map fun s => "    " ++ quote s ++ ",\n") ++ "]"

/-- A table under its header. -/
def writeTable (name : String) (fields : List (String × String)) : String :=
  "[" ++ name ++ "]\n" ++ String.join (fields.map fun (key, value) => key ++ " = " ++ value ++ "\n")

end Toml

open Toml

/-- The values of the section about folders, the log and the script files. -/
def SystemSettings.fields (s : SystemSettings) : List (String × String) :=
  [("assets_path", quote s.assetsPath),
    ("script_path", quote s.scriptPath),
    ("save_path", quote s.savePath),
    ("log_path", quote s.logPath),
    ("log_level", quote s.logLevel),
    ("script_extensions", quoteList s.scriptExtensions)]

/-- The values of the section about the pace of playing. -/
def PlayerSettings.fields (s : PlayerSettings) : List (String × String) :=
  [("tick_ms", toString s.tickMs),
    ("reveal_interval_ms", toString s.revealIntervalMs),
    ("transition_steps", toString s.transitionSteps),
    ("close_grace_ms", toString s.closeGraceMs),
    ("steps_per_run", toString s.stepsPerRun),
    ("preload_ahead", toString s.preloadAhead)]

/-- The values of the section about volumes. -/
def AudioSettings.fields (s : AudioSettings) : List (String × String) :=
  [("music_volume", toString s.musicVolume),
    ("sound_volume", toString s.soundVolume),
    ("letter_volume", toString s.letterVolume),
    ("letter_pool_size", toString s.letterPoolSize),
    ("letter_sound", quote s.letterSound)]

/-- The values of the section about debugging. -/
def DebugSettings.fields (s : DebugSettings) : List (String × String) :=
  [("show_tree", if s.showTree then "true" else "false")]

/-- The document with all settings. -/
def Settings.write (s : Settings) : String :=
  "\n".intercalate
    [writeTable "system" s.system.fields,
      writeTable "player" s.player.fields,
      writeTable "audio" s.audio.fields,
      writeTable "debug" s.debug.fields]

end VisualNovel
