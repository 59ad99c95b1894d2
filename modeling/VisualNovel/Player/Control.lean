import VisualNovel.Player.Basic

/-!
# Driving a player

The host starts a player on a script, ticks it, and answers when it waits: it lets it
go on after a line, or picks an option of a choice.
-/

namespace VisualNovel.Player

/-- Gives the sample for revealed letters back. -/
def releasePool (p : Player) : Player :=
  if p.session.poolLoaded then
    let p := p.call .releasePool
    { p with session := { p.session with poolLoaded := false } }
  else p

/-- Loads the sample for revealed letters anew. -/
def loadPool (p : Player) : Player :=
  let p := p.releasePool
  match p.setup.assets .system p.setup.sound.letterSound with
  | none => p
  | some locator =>
    let call := AudioCall.loadPool locator p.setup.sound.letterPoolSize
    let loaded := p.session.audio.answer call
    let p := p.call call
    if loaded then { p with session := { p.session with poolLoaded := true } } else p

/-- Applies the end state of a node. -/
def applyInstant (p : Player) (n : Node) : Player :=
  { p with session := p.session.replay p.setup n }

/-- Starts a fresh session at a node of the root, the last one if there are fewer. The
nodes before it are applied instantly. -/
def start (p : Player) (scenes : Block) (index : Nat) : Player :=
  let p := { p with
    session := { p.session with
      stage := .empty, vars := .empty, cues := []
      animator := p.session.animator.cancelAll }
    stack := [], reveal := none, fadeIn := none, closing := none, current := none }
  let p := p.loadPool
  let index := min index (scenes.length - 1)
  -- The prefix is replayed onto an uncovered stage; only then is the cover put on.
  let session := p.session.replayAll p.setup (scenes.take index)
  run { p with
    session := { session with stage := { session.stage with transitionAlpha := 1 } }
    root := scenes, frame := ⟨scenes, index, []⟩, fadeInPending := true, state := .running }

/-- Carries out what a task asks for. -/
def handle (p : Player) : Signal → Player
  | .letter _ =>
    if p.session.poolLoaded then p.call (.playFromPool p.setup.sound.letterVolume) else p
  | .backgroundSwapped name locator =>
    p.cue (.backgroundChanged (if name = "_" then none else some name) locator)

/-- Counts a pause down by one tick. -/
def countDown (p : Player) : Player :=
  match p.state with
  | .delaying remaining =>
    if remaining ≤ p.setup.player.tickMs then { p with state := .running }
    else { p with state := .delaying (remaining - p.setup.player.tickMs) }
  | _ => p

/-- Goes on with nodes if the player is not waiting. -/
def resume (p : Player) : Player := if p.state = .running then p.run else p

/-- One tick of every task. -/
def animate (p : Player) : Player :=
  let (a, stage, signals) := p.session.animator.tick p.setup.player.tickMs p.session.stage
  signals.foldl handle ((p.withAnimator a).withStage stage)

/-- One tick of the end. -/
def closeTick (p : Player) : Player :=
  match p.closing with
  | some (.fading id) =>
    if p.session.animator.isRunning id then p
    -- However the fade ended, the stage is covered now.
    else (p.withStage { p.session.stage with transitionAlpha := 1 }).finishClose
  | some (.grace remaining) =>
    if p.setup.player.tickMs < remaining then
      { p with closing := some (.grace (remaining - p.setup.player.tickMs)) }
    else { p with closing := none, state := .terminated }.cue .finished
  | none => p

/-- One tick: pauses count down, the loop goes on if it can, every task takes a step,
and the end comes nearer. -/
def tick (p : Player) : Player :=
  let p := p.countDown.resume.animate
  if p.state = .closing then p.closeTick else p

/-- Whether a line is being revealed. -/
def isRevealing (p : Player) : Bool := p.reveal.any p.session.animator.isRunning

/-- Shows all of a line at once and ends its reveal. -/
def completeReveal (p : Player) (id : TaskId) : Player :=
  { (p.withAnimator (p.session.animator.cancel id)).withStage
      { p.session.stage with message := p.session.stage.targetMessage } with
    reveal := none }

/-- Leaves the node the player waits at. -/
def leave (p : Player) : Player :=
  run { p with reveal := none, state := .running, frame := p.frame.advance }

/-- Goes on after a line. A line still being revealed is completed first, and the
cursor moves on only the next time. -/
def advance (p : Player) : Player :=
  if p.state = .waitingForClick then
    match p.reveal with
    | some id => if p.session.animator.isRunning id then p.completeReveal id else p.leave
    | none => p.leave
  else p

/-- The root node a choice target leads to: that of the label after a star. -/
def targetIndex (p : Player) (target : String) : Option Nat :=
  match target.toList with
  | '*' :: name => labelIndex p.root (String.ofList name)
  | _ => none

/-- Goes on after a choice, at the label the target names or after the choice. -/
def choose (p : Player) (target : String) : Player :=
  if p.state = .waitingForChoice then
    let p := p.withStage { p.session.stage with choices := [] }
    let p := match p.targetIndex target with
      | some i => p.jump i
      | none => p.advanceFrame
    run { p with state := .running }
  else p

/-- Picks an option of the choice by its position; a position that is none of them is
ignored. -/
def chooseOption (p : Player) (index : Nat) : Player :=
  if p.state = .waitingForChoice then
    match p.frame.current.bind fun n => n.options[index]? with
    | some o => p.choose o.target
    | none => p
  else p

/-- Ends the session at once. -/
def dispose (p : Player) : Player :=
  let p := ((p.withAnimator p.session.animator.cancelAll).call .stop).releasePool
  { p.withStage { p.session.stage.clearPresentation with choices := [] } with
    reveal := none, closing := none, state := .terminated }

/-- Whether the player waits for an answer. -/
def isWaiting (p : Player) : Bool :=
  p.state = .waitingForClick || p.state = .waitingForChoice

/-- Takes the queued cues. -/
def takeCues (p : Player) : List Cue × Player :=
  (p.session.cues, { p with session := { p.session with cues := [] } })

end VisualNovel.Player
