import VisualNovel.Player.Session

/-!
# What a session tells

A session holds what the story depends on (the variables, the record of dialogue, the
line and the choice in front of the reader) and how it is presented (pictures, tasks
in progress, sounds, cues). `Narration` names the first part, and this file shows that
nothing of the second part ever flows into it:

> `present_narration`, `present_next`: what a node makes of the narration, and how the
> player goes on after it, are functions of the node and the narration alone.

> `replay_narration`: so is what the instant form of a whole tree makes of it.

> `tick_narration`, `finishAll_narration`: tasks leave it as it is.
-/

namespace VisualNovel

/-- What the story depends on. -/
structure Narration where
  vars : Variables
  history : List DialogueRecord
  speaker : String
  /-- The whole line, however much of it is revealed. -/
  target : String
  choices : List ChoiceOption
  deriving DecidableEq

/-- The narration on a stage, beside the variables. -/
def Stage.narration (stage : Stage) (vars : Variables) : Narration :=
  ⟨vars, stage.history, stage.speaker, stage.targetMessage, stage.choices⟩

/-- The narration of a session. -/
def Session.narration (s : Session) : Narration := s.stage.narration s.vars

/-! ## The stage -/

namespace Stage

variable (stage : Stage) (vars : Variables)

/-- Objects are no part of what is told. -/
@[simp] theorem removeObject_narration (name : String) :
    (stage.removeObject name).narration vars = stage.narration vars := by
  unfold removeObject
  split
  next => rfl
  next => rfl

/-- Settling a stage keeps what it tells. -/
@[simp] theorem settle_narration : stage.settle.narration vars = stage.narration vars := rfl

end Stage

/-! ## Tasks -/

namespace Slot

/-- One tick of a task leaves the narration as it is. -/
theorem advance_narration (dt : Nat) (s : Slot) (stage : Stage) (vars : Variables) :
    (s.advance dt stage).stage.narration vars = stage.narration vars := by
  unfold advance
  cases s.task with
  | tween target tween => rfl
  | fadeOut target =>
    dsimp only [stepped]
    split
    next => exact Stage.removeObject_narration _ vars target
    next => rfl
  | crossfade name locator swapped =>
    dsimp only [stepped]
    split
    next => rfl
    next => rfl
  | transition start finish => rfl
  | flash color => rfl
  | objectShake target remaining =>
    dsimp only
    split
    next => rfl
    next => rfl
  | screenShake remaining =>
    dsimp only
    split
    next => rfl
    next => rfl
  | reveal text total shown interval elapsed =>
    dsimp only
    split
    next => rfl
    next => rfl

/-- So does bringing a task to its end. -/
theorem finish_narration (stage : Stage) (s : Slot) (vars : Variables) :
    (finish stage s).narration vars = stage.narration vars := by
  unfold finish
  cases s.task with
  | fadeOut target => exact Stage.removeObject_narration stage vars target
  | crossfade name locator swapped =>
    dsimp only
    split
    next => rfl
    next => rfl
  | tween _ _ => rfl
  | transition _ _ => rfl
  | flash _ => rfl
  | objectShake _ _ => rfl
  | screenShake _ => rfl
  | reveal _ _ _ _ _ => rfl

end Slot

namespace Animator

/-- No task tells anything: a reveal shows more of the line that is told already. -/
theorem tickSlots_narration (dt : Nat) (vars : Variables) :
    ∀ (slots : List Slot) (stage : Stage),
      (tickSlots dt slots stage).2.1.narration vars = stage.narration vars
  | [], _ => rfl
  | s :: ss, stage => by
    show (tickSlots dt ss (s.advance dt stage).stage).2.1.narration vars = _
    rw [tickSlots_narration dt vars ss, Slot.advance_narration]

/-- A tick of every task leaves the narration as it is. -/
theorem tick_narration (a : Animator) (dt : Nat) (stage : Stage) (vars : Variables) :
    (a.tick dt stage).2.1.narration vars = stage.narration vars :=
  tickSlots_narration dt vars a.slots stage

/-- Bringing every task to its end leaves the narration as it is. -/
theorem finishAll_narration (a : Animator) (stage : Stage) (vars : Variables) :
    (a.finishAll stage).narration vars = stage.narration vars := by
  unfold finishAll
  induction a.slots generalizing stage with
  | nil => rfl
  | cons s ss ih => rw [List.foldl_cons, ih, Slot.finish_narration]

end Animator

/-! ## One node -/

/-- How the player goes on after a node, when it is not applied instantly. -/
def Node.next (n : Node) : Next :=
  match n.kind with
  | .text => .waitClick
  | .wait | .waitForClick =>
    if Session.waitsForClick n then .waitClick
    else if 0 < durationParam n 0 then .delay (durationParam n 0)
    else .proceed
  | .choicePrompt => if n.options.isEmpty then .proceed else .waitChoice
  | _ => .proceed

namespace Narration

/-- What presenting a node makes of the narration. -/
def present (n : Node) (t : Narration) : Narration :=
  match n.kind with
  | .text =>
    { t with
      speaker := n.speaker, target := n.text, history := t.history ++ [⟨n.speaker, n.text⟩] }
  | .choicePrompt => if n.options.isEmpty then t else { t with choices := n.options }
  | .variableSet => { t with vars := assign t.vars (n.param 0) (n.param 1) (n.param 2) }
  | _ => t

/-- What applying a node instantly makes of the narration: a line is not recorded, a
choice is not offered. -/
def replayHere (n : Node) (t : Narration) : Narration :=
  match n.kind with
  | .text => { t with speaker := n.speaker, target := n.text }
  | .variableSet => { t with vars := assign t.vars (n.param 0) (n.param 1) (n.param 2) }
  | _ => t

mutual

/-- What applying a node instantly makes of the narration; of a conditional, the branch
that its condition picks at this point. -/
def replay (t : Narration) (n : Node) : Narration :=
  match n with
  | ⟨_, _, kind, _, _, _, _, _, _, thenBranch, elseBranch⟩ =>
    if kind = .conditional then
      if conditionHolds t.vars n then replayAll t thenBranch else replayAll t elseBranch
    else replayHere n t

/-- What applying a block instantly makes of the narration. -/
def replayAll (t : Narration) : Block → Narration
  | [] => t
  | n :: ns => replayAll (replay t n) ns

end

end Narration

namespace Session

variable (setup : Setup) (instant : Bool) (n : Node) (s : Session)

/-- A background is no part of what is told. -/
@[simp] theorem presentBackground_narration (name time : String) :
    (presentBackground setup instant name time s).narration = s.narration := by
  unfold presentBackground
  dsimp only
  split
  next => rfl
  next =>
    split
    next => rfl
    next =>
      split
      next => rfl
      next => rfl

/-- Putting an object on stage tells nothing. -/
@[simp] theorem presentShow_narration :
    (presentShow setup instant n s).narration = s.narration := by
  unfold presentShow
  dsimp only
  split
  next => rfl
  next =>
    split
    next => rfl
    next => rfl

/-- Taking an object off tells nothing. -/
@[simp] theorem presentHide_narration :
    (presentHide setup instant n s).narration = s.narration := by
  unfold presentHide
  dsimp only
  split
  next => rfl
  next => exact Stage.removeObject_narration s.stage s.vars _

/-- Neither does bringing a property to a value. -/
@[simp] theorem presentChange_narration (id : String) (time : TimeSpec)
    (tween : StageObject → Tween) (set : StageObject → StageObject) :
    (presentChange setup instant id time tween set s).narration = s.narration := by
  unfold presentChange
  split
  next => rfl
  next =>
    split
    next => rfl
    next => rfl

/-- Neither does a tint. -/
@[simp] theorem presentTint_narration :
    (presentTint setup instant n s).narration = s.narration := by
  unfold presentTint
  split
  next => exact presentChange_narration ..
  next => rfl

@[simp] theorem presentObjectShake_narration :
    (presentObjectShake instant n s).narration = s.narration := by
  unfold presentObjectShake
  dsimp only
  split
  next => rfl
  next => rfl

/-- Neither does a shake of the screen. -/
@[simp] theorem presentScreenShake_narration :
    (presentScreenShake instant n s).narration = s.narration := by
  unfold presentScreenShake
  dsimp only
  split
  next => rfl
  next => rfl

/-- Neither does a flash. -/
@[simp] theorem presentFlash_narration :
    (presentFlash setup instant n s).narration = s.narration := by
  unfold presentFlash
  dsimp only
  split
  next => rfl
  next => rfl

/-- Sounds are no part of what is told. -/
@[simp] theorem playSound_narration (kind : AssetKind) (name : String) (volume : Nat) :
    (playSound setup kind name volume s).narration = s.narration := by
  unfold playSound
  split
  next => rfl
  next => rfl

/-- A pause leaves the session alone. -/
@[simp] theorem presentWait_session : (presentWait instant n s).session = s := by
  unfold presentWait
  dsimp only
  split
  next => rfl
  next =>
    split
    next => rfl
    next =>
      split
      next => rfl
      next => rfl

/-- A pause ends with a click or after its time, and at once if there is no time. -/
theorem presentWait_next : (presentWait false n s).next =
    if waitsForClick n then .waitClick
    else if 0 < durationParam n 0 then .delay (durationParam n 0) else .proceed := by
  unfold presentWait
  dsimp only
  rw [if_neg Bool.false_ne_true]
  split
  next => rfl
  next =>
    split
    next => rfl
    next => rfl

/-- What presenting a node makes of the narration depends on nothing else. -/
theorem present_narration :
    (present setup false n s).session.narration = s.narration.present n := by
  unfold present Narration.present
  cases n.kind with
  | choicePrompt =>
    dsimp only [presentChoice, Bool.false_or]
    cases n.options.isEmpty with
    | true => rfl
    | false => rfl
  | wait => exact congrArg narration (presentWait_session false n s)
  | waitForClick => exact congrArg narration (presentWait_session false n s)
  | text => rfl
  | variableSet => rfl
  | musicStop => rfl
  | soundEffect => exact playSound_narration ..
  | _ => simp [presentMove, presentScale, presentRotate]

/-- How the player goes on after a node depends on the node alone. -/
theorem present_next : (present setup false n s).next = n.next := by
  unfold present Node.next
  cases n.kind with
  | choicePrompt =>
    dsimp only [presentChoice, Bool.false_or]
    cases n.options.isEmpty with
    | true => rfl
    | false => rfl
  | wait => exact presentWait_next n s
  | waitForClick => exact presentWait_next n s
  | _ => rfl

/-- What a node that is applied instantly makes of the narration depends on nothing else. -/
theorem present_instant_narration :
    (present setup true n s).session.narration = s.narration.replayHere n := by
  unfold present Narration.replayHere
  cases n.kind with
  | wait => rfl
  | waitForClick => rfl
  | choicePrompt => rfl
  | text => rfl
  | variableSet => rfl
  | musicStop => rfl
  | soundEffect => rfl
  | _ => simp [presentMove, presentScale, presentRotate]

mutual

/-- What applying a tree instantly makes of the narration depends on nothing else. -/
theorem replay_narration (setup : Setup) (s : Session) (n : Node) :
    (replay setup s n).narration = s.narration.replay n := by
  match n with
  | ⟨_, _, kind, _, _, _, _, _, _, thenBranch, elseBranch⟩ =>
    unfold replay Narration.replay
    split
    next =>
      rw [apply_ite narration, replayAll_narration setup s thenBranch,
        replayAll_narration setup s elseBranch]
      rfl
    next => exact present_instant_narration setup _ s

/-- So it is with a block, whose conditionals pick their branches by the narration alone. -/
theorem replayAll_narration (setup : Setup) (s : Session) (b : Block) :
    (replayAll setup s b).narration = s.narration.replayAll b := by
  match b with
  | [] =>
    unfold replayAll Narration.replayAll
    rfl
  | n :: ns =>
    unfold replayAll Narration.replayAll
    rw [replayAll_narration setup (replay setup s n) ns, replay_narration setup s n]

end

end Session

end VisualNovel
