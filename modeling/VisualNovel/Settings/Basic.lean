/-!
# Settings

The settings of a player in four sections, each with its default.
-/

namespace VisualNovel

/-- Folders, the log and the script files. -/
structure SystemSettings where
  assetsPath : String := "assets/"
  scriptPath : String := "scripts/"
  savePath : String := "saves/"
  logPath : String := "logs/"
  logLevel : String := "info"
  scriptExtensions : List String := ["txt", "nvl"]
  deriving DecidableEq, Repr, Inhabited

/-- The pace of playing. -/
structure PlayerSettings where
  /-- Milliseconds of one tick. -/
  tickMs : Nat := 16
  revealIntervalMs : Nat := 30
  /-- Ticks of the opening and the closing fade. -/
  transitionSteps : Nat := 20
  closeGraceMs : Nat := 500
  /-- The most nodes that are played before the host gets control again. -/
  stepsPerRun : Nat := 10000
  /-- How many nodes ahead assets are looked up. -/
  preloadAhead : Nat := 20
  deriving DecidableEq, Repr, Inhabited

/-- Volumes in percent, and the sample that sounds with each revealed letter. -/
structure AudioSettings where
  musicVolume : Nat := 100
  soundVolume : Nat := 100
  letterVolume : Nat := 60
  letterPoolSize : Nat := 20
  letterSound : String := "letter_se"
  deriving DecidableEq, Repr, Inhabited

structure DebugSettings where
  showTree : Bool := false
  deriving DecidableEq, Repr, Inhabited

/-- All sections. -/
structure Settings where
  system : SystemSettings := {}
  player : PlayerSettings := {}
  audio : AudioSettings := {}
  debug : DebugSettings := {}
  deriving DecidableEq, Repr, Inhabited

end VisualNovel
