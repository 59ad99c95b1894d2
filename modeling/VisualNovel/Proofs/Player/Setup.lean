import VisualNovel.Play.Pump

/-!
# A player keeps its setup

What a player is given once, its assets and its settings, no entry point changes.
-/

namespace VisualNovel.Player

variable (p : Player)

/-- Preloading asks the assets of the setup and keeps them. -/
@[simp] theorem preload_setup : p.preload.setup = p.setup := by
  unfold preload
  dsimp only
  split
  next => rfl
  next => rfl

@[simp] theorem startFadeIn_setup : p.startFadeIn.setup = p.setup := by
  unfold startFadeIn
  split
  next => rfl
  next => rfl

/-- A wait begins with preloading and fading in, and neither touches the setup. -/
@[simp] theorem suspend_setup (state : PlayerState) : (p.suspend state).setup = p.setup := by
  unfold suspend
  rw [startFadeIn_setup, preload_setup]

/-- Closing keeps the setup, whether or not a fade-in is under way. -/
@[simp] theorem beginClose_setup : p.beginClose.setup = p.setup := by
  unfold beginClose
  cases p.fadeIn with
  | none =>
    dsimp only
    split
    next => rfl
    next => rfl
  | some id =>
    dsimp only
    split
    next => rfl
    next => rfl

/-- Entering a conditional keeps the setup, whichever branch is taken. -/
@[simp] theorem enterBranch_setup (n : Node) : (p.enterBranch n).setup = p.setup := by
  unfold enterBranch
  dsimp only
  split
  next => rfl
  next => rfl

/-- Whatever a handler asks for next, at most a wait begins, and the setup is kept. -/
@[simp] theorem follow_setup (next : Next) : (p.follow next).1.setup = p.setup := by
  cases next with
  | proceed => rfl
  | waitClick => exact p.suspend_setup .waitingForClick
  | waitChoice => exact p.suspend_setup .waitingForChoice
  | delay ms => rfl

@[simp] theorem dispatch_setup (n : Node) : (p.dispatch n).1.setup = p.setup :=
  follow_setup _ _

/-- One round keeps the setup, whatever stands at the cursor. -/
@[simp] theorem step_setup : p.step.1.setup = p.setup := by
  unfold step
  cases p.frame.current with
  | none =>
    cases p.stack with
    | nil => exact p.beginClose_setup
    | cons parent others => rfl
  | some n =>
    dsimp only
    cases n.kind with
    | label => rfl
    | goto =>
      dsimp only
      cases labelIndex p.root n.jumpTarget with
      | none => rfl
      | some i => rfl
    | conditional => exact p.enterBranch_setup n
    | _ => exact p.dispatch_setup n

/-- So does a run of the loop, however many rounds it is allowed. -/
theorem runFor_setup (budget : Nat) : (p.runFor budget).setup = p.setup := by
  induction budget generalizing p with
  | zero => rfl
  | succ budget ih =>
    have first := p.step_setup
    unfold runFor
    split
    next q hs =>
      rw [hs] at first
      rw [ih, first]
    next q hs =>
      rw [hs] at first
      exact first

@[simp] theorem run_setup : p.run.setup = p.setup := p.runFor_setup _

/-! ## The clocks -/

/-- A pause runs down without touching the setup. -/
@[simp] theorem countDown_setup : p.countDown.setup = p.setup := by
  unfold countDown
  split
  next =>
    split
    next => rfl
    next => rfl
  next => rfl

/-- The setup is kept whether or not the loop goes on. -/
@[simp] theorem resume_setup : p.resume.setup = p.setup := by
  unfold resume
  split
  next => exact p.run_setup
  next => rfl

/-- No signal of the animator reaches the setup. -/
@[simp] theorem handle_setup (signal : Signal) : (p.handle signal).setup = p.setup := by
  cases signal with
  | letter index =>
    unfold handle
    dsimp only
    split
    next => rfl
    next => rfl
  | backgroundSwapped name locator => rfl

theorem foldl_handle_setup (signals : List Signal) (p : Player) :
    (signals.foldl handle p).setup = p.setup := by
  induction signals generalizing p with
  | nil => rfl
  | cons signal signals ih => rw [List.foldl_cons, ih, handle_setup]

@[simp] theorem animate_setup : p.animate.setup = p.setup := foldl_handle_setup _ _

/-- Counting down to the end keeps the setup, the last tick included. -/
@[simp] theorem closeTick_setup : p.closeTick.setup = p.setup := by
  unfold closeTick
  split
  next =>
    split
    next => rfl
    next => rfl
  next =>
    split
    next => rfl
    next => rfl
  next => rfl

/-- A tick keeps the setup, in every state of the player. -/
@[simp] theorem tick_setup : p.tick.setup = p.setup := by
  unfold tick
  dsimp only
  split
  next => simp
  next => simp

/-! ## Answers and starts -/

@[simp] theorem leave_setup : p.leave.setup = p.setup := run_setup _

/-- A click keeps the setup, whether it completes a line or leaves it. -/
@[simp] theorem advance_setup : p.advance.setup = p.setup := by
  unfold advance
  split
  next =>
    split
    next =>
      split
      next => rfl
      next => exact p.leave_setup
    next => exact p.leave_setup
  next => rfl

/-- Proceeding keeps the setup, as the one or two clicks it is made of do. -/
@[simp] theorem proceed_setup : p.proceed.setup = p.setup := by
  unfold proceed
  split
  next => simp
  next => simp

/-- Choosing keeps the setup, whether or not the target is a label. -/
@[simp] theorem choose_setup (target : String) : (p.choose target).setup = p.setup := by
  unfold choose
  split
  next =>
    dsimp only
    rw [run_setup]
    split
    next => rfl
    next => rfl
  next => rfl

@[simp] theorem releasePool_setup : p.releasePool.setup = p.setup := by
  unfold releasePool
  split
  next => rfl
  next => rfl

/-- The pool is loaded anew with the assets of the setup, which stay. -/
@[simp] theorem loadPool_setup : p.loadPool.setup = p.setup := by
  unfold loadPool
  dsimp only
  split
  next => exact p.releasePool_setup
  next =>
    split
    next => exact p.releasePool_setup
    next => exact p.releasePool_setup

/-- Starting a script keeps what the player was made with. -/
@[simp] theorem start_setup (scenes : Block) (index : Nat) :
    (p.start scenes index).setup = p.setup := by
  unfold start
  dsimp only
  rw [run_setup]
  exact loadPool_setup _

end VisualNovel.Player
