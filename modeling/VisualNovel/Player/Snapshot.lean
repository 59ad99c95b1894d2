import VisualNovel.Player.Control

/-!
# Snapshots

A snapshot holds the stage with every effect at its end, the variables, and the place
in the script by position. It can be resumed in a player that runs the same script,
if it fits.
-/

namespace VisualNovel

/-- A frame by position: where its block sits, and where in it. -/
structure FrameSnapshot where
  path : BlockPath
  pc : Nat
  deriving DecidableEq, Repr, Inhabited

/-- The position of a frame. -/
def FrameSnapshot.of (f : Frame) : FrameSnapshot := ⟨f.path, f.pc⟩

/-- A saved session. -/
structure Snapshot where
  stage : Stage
  vars : Variables
  state : PlayerState
  frame : FrameSnapshot
  /-- Places to return to, the outermost first. -/
  stack : List FrameSnapshot
  deriving DecidableEq

/-- Why a snapshot does not fit a script. -/
inductive RestoreError
  | missingBlock (path : BlockPath)
  | outOfRange (pc length : Nat)
  deriving DecidableEq, Repr

/-- A path in words. -/
def BlockPath.describe (path : BlockPath) : String :=
  let step (s : BranchStep) : String :=
    "BranchStep \x7b index: " ++ toString s.index ++ ", then: " ++
      (if s.side then "true" else "false") ++ " \x7d"
  "[" ++ String.intercalate ", " (path.map step) ++ "]"

/-- The wording of the error. -/
def RestoreError.message : RestoreError → String
  | .missingBlock path =>
    "Saved block " ++ BlockPath.describe path ++ " does not exist in this script"
  | .outOfRange pc length =>
    "Saved pc " ++ toString pc ++ " out of range for a block of " ++ toString length ++ " node(s)"

namespace Player

/-- The session with every effect in progress at its end. -/
def snapshot (p : Player) : Snapshot where
  stage := p.session.animator.finishAll p.session.stage
  vars := p.session.vars
  state := p.state
  frame := .of p.frame
  stack := p.stack.reverse.map FrameSnapshot.of

/-- The frame at a position of the script; the place may be the end of its block. -/
def resolveFrame (root : Block) (s : FrameSnapshot) : Except RestoreError Frame :=
  match Script.resolve root s.path with
  | none => .error (.missingBlock s.path)
  | some block =>
    if block.length < s.pc then .error (.outOfRange s.pc block.length)
    else .ok ⟨block, s.pc, s.path⟩

/-- Whether a snapshot was taken while a line waited, so that the line will be recorded
again. -/
def waitsOnText (s : Snapshot) (frame : Frame) : Bool :=
  s.state = .waitingForClick && frame.current.any (·.kind = .text)

/-- What is done to a player in steps, one of which may fail; the steps before it stay done. -/
abbrev Attempt (ε : Type) := ExceptT ε (StateM Player)

namespace Attempt

variable {ε : Type} (attempt : Attempt ε Unit) (p : Player)

/-- The player that an attempt leaves, whether it failed or not. -/
def left : Player := (attempt.run p).2

/-- The player after an attempt, unless it failed. -/
def outcome : Except ε Player :=
  match attempt.run p with
  | (.ok _, q) => .ok q
  | (.error e, _) => .error e

end Attempt

/-- Resumes a saved session of the script the player runs. A pause goes on; any other
session presents the node it was at again. -/
def resuming (s : Snapshot) : Attempt RestoreError Unit := do
  let root := (← get).root
  let frame ← resolveFrame root s.frame
  let stack ← (s.stack.mapM (resolveFrame root) : Except RestoreError (List Frame))
  modify fun p => p.withAnimator p.session.animator.cancelAll
  modify fun p => { p with
    session := { p.session with stage := s.stage.settle, vars := s.vars, cues := [] } }
  if waitsOnText s frame then
    modify fun p => p.withStage
      { p.session.stage with history := p.session.stage.history.dropLast }
  modify fun p => { p with
    frame := frame, stack := stack.reverse
    reveal := none, fadeIn := none, closing := none, fadeInPending := false }
  match s.state with
  | .delaying remaining => modify fun p => { p with state := .delaying remaining }
  | _ => modify fun p => run { p with state := .running }

/-- The player with a saved session resumed. -/
def restore (p : Player) (s : Snapshot) : Except RestoreError Player := (resuming s).outcome p

end Player

end VisualNovel
