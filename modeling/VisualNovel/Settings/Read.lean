import VisualNovel.Settings.Basic
import VisualNovel.Settings.Toml.Value
import VisualNovel.Text.Integer

/-!
# Reading settings

A document that cannot be read counts as empty. A section that is missing keeps its
defaults, and so does one that has a value of the wrong kind; fields that are missing
keep their own, and unknown fields are ignored. A section may also be a list of its
values in order. A moment can stand where a text is wanted.
-/

namespace VisualNovel

namespace Toml

namespace Value

/-- A text, or the text of a moment. -/
def text? : Value → Option String
  | .scalar (.text s) => some s
  | .scalar (.moment m) => some m.text
  | _ => none

/-- A truth value. -/
def boolean? : Value → Option Bool
  | .scalar (.boolean b) => some b
  | _ => none

/-- A natural up to a bound. -/
def natural? (above : Nat) : Value → Option Nat
  | .scalar (.integer i) => if 0 ≤ i ∧ i ≤ above then some i.toNat else none
  | _ => none

/-- A natural of 32 bits. -/
def word32? : Value → Option Nat := natural? Text.maxWord32

/-- A natural of 64 bits. -/
def word64? : Value → Option Nat := natural? Text.maxWord64

/-- A list of texts. -/
def texts? : Value → Option (List String)
  | .list items => items.mapM text?
  | _ => none

end Value

/-- A section by the names of its fields, or their values in order. -/
inductive Section
  | named (fields : List (String × Value))
  | ordered (values : List Value)

/-- The section that a value stands for. -/
def Value.section? : Value → Option Section
  | .table fields => some (.named fields)
  | .list items => some (.ordered items)
  | .scalar _ => none

/-- A field of a section by its name and position: a default if it is missing, nothing
if it is of the wrong kind. -/
def Section.field {α : Type} (s : Section) (name : String) (position : Nat)
    (read : Value → Option α) (default : α) : Option α :=
  let found := match s with
    | .named fields => fields.lookup name
    | .ordered values => values[position]?
  match found with
  | some v => read v
  | none => some default

/-- Whether a section has no more than so many values in order. -/
def Section.fits (s : Section) (count : Nat) : Bool :=
  match s with
  | .named _ => true
  | .ordered values => values.length ≤ count

end Toml

open Toml Toml.Value

/-- Reads the section about folders, the log and the script files. -/
def SystemSettings.read? (s : Section) : Option SystemSettings := do
  guard (s.fits 6)
  let d : SystemSettings := {}
  pure
    { assetsPath := ← s.field "assets_path" 0 text? d.assetsPath
      scriptPath := ← s.field "script_path" 1 text? d.scriptPath
      savePath := ← s.field "save_path" 2 text? d.savePath
      logPath := ← s.field "log_path" 3 text? d.logPath
      logLevel := ← s.field "log_level" 4 text? d.logLevel
      scriptExtensions := ← s.field "script_extensions" 5 texts? d.scriptExtensions }

/-- Reads the section about the pace of playing. -/
def PlayerSettings.read? (s : Section) : Option PlayerSettings := do
  guard (s.fits 6)
  let d : PlayerSettings := {}
  pure
    { tickMs := ← s.field "tick_ms" 0 word32? d.tickMs
      revealIntervalMs := ← s.field "reveal_interval_ms" 1 word32? d.revealIntervalMs
      transitionSteps := ← s.field "transition_steps" 2 word32? d.transitionSteps
      closeGraceMs := ← s.field "close_grace_ms" 3 word32? d.closeGraceMs
      stepsPerRun := ← s.field "steps_per_run" 4 word64? d.stepsPerRun
      preloadAhead := ← s.field "preload_ahead" 5 word64? d.preloadAhead }

/-- Reads the section about volumes. -/
def AudioSettings.read? (s : Section) : Option AudioSettings := do
  guard (s.fits 5)
  let d : AudioSettings := {}
  pure
    { musicVolume := ← s.field "music_volume" 0 word32? d.musicVolume
      soundVolume := ← s.field "sound_volume" 1 word32? d.soundVolume
      letterVolume := ← s.field "letter_volume" 2 word32? d.letterVolume
      letterPoolSize := ← s.field "letter_pool_size" 3 word64? d.letterPoolSize
      letterSound := ← s.field "letter_sound" 4 text? d.letterSound }

/-- Reads the section about debugging. -/
def DebugSettings.read? (s : Section) : Option DebugSettings := do
  guard (s.fits 1)
  pure { showTree := ← s.field "show_tree" 0 boolean? ({} : DebugSettings).showTree }

/-- The section with a name as it is read, or its default. -/
def sectionOf {α : Type} (fs : List (String × Value)) (name : String) (read : Section → Option α)
    (default : α) : α :=
  (((fs.lookup name).bind section?).bind read).getD default

/-- The settings in a document. -/
def Settings.ofFields (fs : List (String × Value)) : Settings where
  system := sectionOf fs "system" SystemSettings.read? {}
  player := sectionOf fs "player" PlayerSettings.read? {}
  audio := sectionOf fs "audio" AudioSettings.read? {}
  debug := sectionOf fs "debug" DebugSettings.read? {}

/-- The settings in a text. -/
def Settings.ofText (text : String) : Settings := .ofFields ((Toml.read? text.toList).getD [])

end VisualNovel
