import VisualNovel.Stage.Task

/-!
# The animator

The tasks in progress, oldest first. Starting a task takes the place of the one it
would contend with: a tween of the same property of the same object, a shake of the
same object, or the task of the same screen-wide kind.
-/

namespace VisualNovel

/-- The tasks in progress and the last identity given out. -/
structure Animator where
  slots : List Slot
  lastId : TaskId
  deriving DecidableEq

namespace Animator

/-- No task in progress, no identity given out. -/
def empty : Animator := ⟨[], 0⟩

instance : Inhabited Animator := ⟨empty⟩

/-- Adds a task of at least one step under a new identity. -/
def push (a : Animator) (task : Task) (steps : Nat) (easing : Easing) : Animator × TaskId :=
  let id := a.lastId + 1
  (⟨a.slots ++ [⟨id, task, 0, max steps 1, easing⟩], id⟩, id)

/-- Drops the tasks that satisfy a test. -/
def drop (a : Animator) (test : Task → Bool) : Animator :=
  { a with slots := a.slots.filter fun s => !test s.task }

/-- Whether a task is a tween of a property of an object. -/
def isTween (target : String) (channel : Channel) : Task → Bool
  | .tween t old => t == target && old.channel == channel
  | _ => false

def isCrossfade : Task → Bool
  | .crossfade .. => true
  | _ => false

def isTransition : Task → Bool
  | .transition .. => true
  | _ => false

def isFlash : Task → Bool
  | .flash .. => true
  | _ => false

def isObjectShake (target : String) : Task → Bool
  | .objectShake t _ => t == target
  | _ => false

def isScreenShake : Task → Bool
  | .screenShake .. => true
  | _ => false

def isReveal : Task → Bool
  | .reveal .. => true
  | _ => false

/-- Starts a tween. -/
def tween (a : Animator) (target : String) (tween : Tween) (steps : Nat) (easing : Easing) :
    Animator × TaskId :=
  (a.drop (isTween target tween.channel)).push (.tween target tween) steps easing

/-- Starts to fade an object out and take it off the stage. -/
def fadeOut (a : Animator) (target : String) (steps : Nat) (easing : Easing) :
    Animator × TaskId :=
  (a.drop (isTween target .alpha)).push (.fadeOut target) steps easing

/-- Starts to change the background behind a cover that comes and goes in so many
steps each. -/
def crossfade (a : Animator) (name : String) (locator : Option String) (halfSteps : Nat) :
    Animator × TaskId :=
  (a.drop isCrossfade).push (.crossfade name locator false) (2 * max halfSteps 1) .linear

/-- Starts to change the opacity of the cover. -/
def transition (a : Animator) (start finish : Single) (steps : Nat) : Animator × TaskId :=
  (a.drop isTransition).push (.transition start finish) steps .linear

/-- Starts to let a colour over the stage vanish. -/
def flash (a : Animator) (color : Color) (steps : Nat) (easing : Easing) : Animator × TaskId :=
  (a.drop isFlash).push (.flash color) steps easing

/-- Ends the shaking of an object after so many milliseconds. -/
def shakeObject (a : Animator) (target : String) (ms : Nat) : Animator × TaskId :=
  (a.drop (isObjectShake target)).push (.objectShake target ms) 1 .linear

/-- Ends the shaking of the screen after so many milliseconds. -/
def shakeScreen (a : Animator) (ms : Nat) : Animator × TaskId :=
  (a.drop isScreenShake).push (.screenShake ms) 1 .linear

/-- Starts to reveal a text, one visible character at each interval, the first at once. -/
def reveal (a : Animator) (text : String) (interval : Nat) : Animator × TaskId :=
  (a.drop isReveal).push
    (.reveal text.toList (Markup.visibleLength text.toList) 0 (max interval 1) 0) 1 .linear

/-- Whether a task is in progress. -/
def isRunning (a : Animator) (id : TaskId) : Bool := a.slots.any (·.id == id)

/-- Drops a task. -/
def cancel (a : Animator) (id : TaskId) : Animator :=
  { a with slots := a.slots.filter (·.id != id) }

/-- Drops the tasks of an object. -/
def cancelTarget (a : Animator) (target : String) : Animator :=
  a.drop fun task => task.target? == some target

/-- Drops all tasks. -/
def cancelAll (a : Animator) : Animator := { a with slots := [] }

/-- The stage with every task in progress at its end. -/
def finishAll (a : Animator) (stage : Stage) : Stage := a.slots.foldl Slot.finish stage

/-- One tick of every task, oldest first: the tasks that go on, the stage, and the
signals. -/
def tickSlots (dt : Nat) : List Slot → Stage → List Slot × Stage × List Signal
  | [], stage => ([], stage, [])
  | s :: ss, stage =>
    -- Later tasks see the stage as this one leaves it.
    let now := s.advance dt stage
    let (going, stage, signals) := tickSlots dt ss now.stage
    (now.next.toList ++ going, stage, now.signals ++ signals)

/-- One tick of `dt` milliseconds. -/
def tick (a : Animator) (dt : Nat) (stage : Stage) : Animator × Stage × List Signal :=
  let (slots, stage, signals) := tickSlots dt a.slots stage
  ({ a with slots := slots }, stage, signals)

end Animator

end VisualNovel
