import VisualNovel.CommandLine.Arguments
import VisualNovel.CommandLine.Setup
import VisualNovel.Library
import VisualNovel.Player.Control
import VisualNovel.Script.Check
import VisualNovel.Script.Dump
import VisualNovel.Script.Write
import VisualNovel.Stage.AssetFolder

/-!
# Commands

A command loads its script and then prints what it found, or sets up a player. Errors
are reported and decide the exit code: two for arguments that are refused, one for a
command that fails.
-/

namespace VisualNovel

/-- Why a command failed. -/
inductive CommandError
  | load (cause : LibraryError)
  | unresolved (count : Nat) (file : String)
  | unknownCommand (word : String)
  deriving DecidableEq, Repr

/-- The wording of the error and of what caused it. -/
def CommandError.message : CommandError → String
  | .load cause => cause.fullMessage
  | .unresolved count file => toString count ++ " unresolved target(s) in " ++ file
  | .unknownCommand word => "unknown command '" ++ word ++ "'\n\n" ++ Arguments.usage

/-- A player ready to be started from the command line. -/
structure Showing where
  player : Player
  scenes : Block
  start : Nat
  savePath : String
  /-- Whether each tick takes its time. -/
  realtime : Bool

namespace Showing

/-- The player at the start of its script. -/
def opened (s : Showing) : Player := s.player.start s.scenes s.start

end Showing

/-- What is left to do after a command: leave with an exit code, or play. -/
inductive Outcome
  | leave (code : UInt32)
  | play (showing : Showing)

/-- What `check` prints about a script. -/
def Report.lines (title : String) (r : Report) : List String :=
  [title ++ ": " ++ toString r.nodes ++ " node(s)", "labels: " ++ ", ".intercalate r.labels]
    ++ r.unknown.map ("unknown directive: " ++ ·)
    ++ r.unresolved.map ("unresolved: " ++ ·)

namespace Host

variable {m : Type → Type} [Monad m]

/-- Reports what a check found. -/
def check (h : Host m) (script : Script.Entry) (file : String) :
    m (Except CommandError Outcome) := do
  let report := Script.check script.scenes
  (report.lines script.title).forM h.printLine
  pure <| if report.isClean then .ok (.leave 0)
    else .error (.unresolved report.unresolved.length file)

/-- A player for a script, with the assets that are there. Sounds are not heard. -/
def showing (h : Host m) (settings : Settings) (a : Arguments) (scenes : Block) : m Showing := do
  let assets ← Assets.ofFolder h.files settings.system.assetsPath
  pure
    { player := Player.new ⟨assets, settings.player, settings.audio⟩ .accepting
      scenes := scenes
      start := a.start
      savePath := settings.system.savePath
      realtime := !a.fast }

/-- Carries out a command on a script. -/
def carryOut (h : Host m) (settings : Settings) (a : Arguments) (script : Script.Entry) :
    m (Except CommandError Outcome) := do
  if a.command = "play" then
    pure (.ok (.play (← h.showing settings a script.scenes)))
  else if a.command = "check" then h.check script a.file
  else if a.command = "fmt" then
    h.print (Script.write script.scenes)
    pure (.ok (.leave 0))
  else if a.command = "dump" then
    h.printLine (Script.dump script.title script.scenes)
    pure (.ok (.leave 0))
  else pure (.error (.unknownCommand a.command))

/-- Loads the script of a command and carries the command out. -/
def runCommand (h : Host m) (settings : Settings) (a : Arguments) :
    m (Except CommandError Outcome) := do
  match Library.empty.load a.file (← h.files.readText a.file) with
  | .error e => pure (.error (.load e))
  | .ok (script, _) => h.carryOut settings a script

/-- Runs a command line. -/
def run (h : Host m) (words : List String) : m Outcome := do
  match Arguments.ofWords words with
  | .error e =>
    h.reportLine e.message
    pure (.leave 2)
  | .ok a =>
    let settings ← h.setUp
    match ← h.runCommand settings a with
    | .ok outcome => pure outcome
    | .error e =>
      h.reportLine ("error: " ++ e.message)
      pure (.leave 1)

end Host

end VisualNovel
