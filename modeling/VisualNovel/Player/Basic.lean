import VisualNovel.Player.Preload
import VisualNovel.Script.Edit

/-!
# The player

A player walks a scene tree one suspension at a time. Its cursor is a frame, a place
in one block; entering a branch puts the place after it on a stack of return frames.
`run` dispatches nodes until one suspends, the script ends or the budget is spent.
-/

namespace VisualNovel

/-- A place in a block, and where the block sits in the tree. -/
structure Frame where
  block : Block
  pc : Nat
  path : BlockPath
  deriving Inhabited

namespace Frame

/-- The node at the place; none past the end of the block. -/
def current (f : Frame) : Option Node := f.block[f.pc]?

/-- The next place. -/
def advance (f : Frame) : Frame := { f with pc := f.pc + 1 }

end Frame

/-- What a player is doing. -/
inductive PlayerState
  | loading
  | running
  /-- A pause with so many milliseconds left. -/
  | delaying (remaining : Nat)
  | waitingForClick
  | waitingForChoice
  | closing
  | terminated
  deriving DecidableEq, Repr, Inhabited

/-- The two stages of the end: a fade to black, and a pause after it. -/
inductive Closing
  | fading (task : TaskId)
  | grace (remaining : Nat)
  deriving DecidableEq, Repr

/-- A player with its script. -/
structure Player where
  setup : Setup
  session : Session
  root : Block
  frame : Frame
  /-- Places to return to, the innermost first. -/
  stack : List Frame
  state : PlayerState
  /-- The reveal of the current line. -/
  reveal : Option TaskId
  /-- Whether the opening fade still has to start. -/
  fadeInPending : Bool
  /-- The opening fade. -/
  fadeIn : Option TaskId
  closing : Option Closing
  /-- The node presented last. -/
  current : Option NodeId

/-- The index of the last label of the root with a name. -/
def labelIndex (root : Block) (name : String) : Option Nat :=
  (root.zipIdx.findRev? fun (n, _) => n.kind = .label && n.label = name).map Prod.snd

namespace Player

/-- A player without a script. -/
def new (setup : Setup) (audio : AudioSink) : Player where
  setup := setup
  session :=
    { stage := .empty, vars := .empty, cues := [], animator := .empty, audio := audio
      poolLoaded := false }
  root := []
  frame := ⟨[], 0, []⟩
  stack := []
  state := .loading
  reveal := none
  fadeInPending := false
  fadeIn := none
  closing := none
  current := none

/-- Changes the stage. -/
def withStage (p : Player) (stage : Stage) : Player :=
  { p with session := { p.session with stage := stage } }

/-- Changes the animator. -/
def withAnimator (p : Player) (a : Animator) : Player :=
  { p with session := { p.session with animator := a } }

/-- Queues a cue. -/
def cue (p : Player) (c : Cue) : Player := { p with session := p.session.cue c }

/-- Calls the audio sink. -/
def call (p : Player) (c : AudioCall) : Player := { p with session := p.session.call c }

/-- Moves the cursor to the next place. -/
def advanceFrame (p : Player) : Player := { p with frame := p.frame.advance }

/-- Moves the cursor to a node of the root; nothing is left to return to. -/
def jump (p : Player) (index : Nat) : Player :=
  { p with stack := [], frame := ⟨p.root, index, []⟩ }

/-- Enters the branch that the condition of the current node picks, with the place
after the node to return to. An empty branch is passed over. -/
def enterBranch (p : Player) (n : Node) : Player :=
  let side := conditionHolds p.session.vars n
  let branch := n.branch side
  if branch.isEmpty then p.advanceFrame
  else
    { p with
      frame := ⟨branch, 0, p.frame.path ++ [⟨p.frame.pc, side⟩]⟩
      stack := p.frame.advance :: p.stack }

/-- Queues the assets of the nodes ahead, if there are any. -/
def preload (p : Player) : Player :=
  let (images, audios) := Preload.scan p.frame.block (p.frame.pc + 1)
    p.setup.player.preloadAhead p.setup.assets
  if images.isEmpty && audios.isEmpty then p else p.cue (.preload images audios)

/-- Starts the opening fade if it is due. -/
def startFadeIn (p : Player) : Player :=
  if p.fadeInPending then
    let (a, id) := p.session.animator.transition p.session.stage.transitionAlpha 0
      p.setup.player.transitionSteps
    { p.withAnimator a with fadeInPending := false, fadeIn := some id }
  else p

/-- Waits in a state. -/
def suspend (p : Player) (state : PlayerState) : Player :=
  ({ p with state := state }.preload).startFadeIn

/-- Silences and clears the stage, and begins the pause at the end. -/
def finishClose (p : Player) : Player :=
  let p := p.call .stop
  { p.withStage p.session.stage.clearPresentation with
    closing := some (.grace p.setup.player.closeGraceMs) }

/-- Begins the end: a fade to black, unless the stage is covered already. -/
def beginClose (p : Player) : Player :=
  let p := match p.fadeIn with
    | some id => p.withAnimator (p.session.animator.cancel id)
    | none => p
  let p := { p with fadeInPending := false, fadeIn := none, state := .closing }
  let alpha := p.session.stage.transitionAlpha
  if alpha.less 1 then
    let (a, id) := p.session.animator.transition alpha 1 p.setup.player.transitionSteps
    { p.withAnimator a with closing := some (.fading id) }
  else p.finishClose

/-- Goes on after a node was presented; `false` when the player now waits. -/
def follow (p : Player) : Next → Player × Bool
  | .proceed => (p.advanceFrame, true)
  | .waitClick => (p.suspend .waitingForClick, false)
  | .waitChoice => (p.suspend .waitingForChoice, false)
  | .delay ms => ({ p.advanceFrame with state := .delaying ms }, false)

/-- Presents the current node and goes on. -/
def dispatch (p : Player) (n : Node) : Player × Bool :=
  let effect := p.session.present p.setup false n
  follow
    { p with
      current := some n.id, session := effect.session, reveal := effect.reveal.or p.reveal }
    effect.next

/-- One round of the loop: `false` when the player waits or the script has ended. -/
def step (p : Player) : Player × Bool :=
  match p.frame.current with
  | none =>
    match p.stack with
    -- The end of a branch: go on after its conditional.
    | parent :: others => ({ p with frame := parent, stack := others }, true)
    | [] => (p.beginClose, false)
  | some n =>
    match n.kind with
    | .label => (p.advanceFrame, true)
    | .goto =>
      match labelIndex p.root n.jumpTarget with
      | some i => (p.jump i, true)
      -- A jump to no label is passed over.
      | none => (p.advanceFrame, true)
    | .conditional => (p.enterBranch n, true)
    | _ => p.dispatch n

/-- At most so many rounds of the loop. -/
def runFor : Nat → Player → Player
  | 0, p => p
  | budget + 1, p =>
    match p.step with
    | (p, true) => runFor budget p
    | (p, false) => p

/-- Plays nodes until the player waits, the script ends or the budget is spent. -/
def run (p : Player) : Player := p.runFor (max p.setup.player.stepsPerRun 1)

end Player

end VisualNovel
