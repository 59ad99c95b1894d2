import VisualNovel.Stage.Basic
import VisualNovel.Markup.Reveal
import VisualNovel.Timing

/-!
# Timed effects

A task is one effect in progress. Stepped tasks (tweens, fades, flashes, crossfades)
count ticks up to a fixed number and run the fraction done through an easing; timed
tasks (shakes, the reveal of a message) count milliseconds. `Slot.advance` is one tick
of one task, `Slot.finish` writes the state a task would end in. A task of an object
that is not on stage changes nothing and still runs its course.
-/

namespace VisualNovel

/-- A property of an object on its way between two values. -/
inductive Tween
  | alpha (start finish : Single)
  | position (startX startY finishX finishY : Int32)
  | scale (startX startY finishX finishY : Single)
  | rotation (start finish : Single)
  | tint (start finish : Color)
  deriving DecidableEq

/-- The property a tween changes. -/
inductive Channel
  | alpha
  | position
  | scale
  | rotation
  | tint
  deriving DecidableEq, Repr

namespace Tween

def channel : Tween → Channel
  | alpha .. => .alpha
  | position .. => .position
  | scale .. => .scale
  | rotation .. => .rotation
  | tint .. => .tint

/-- A coordinate between two others at the fraction `t`, toward zero. -/
def coordinate (start finish : Int32) (t : Single) : Int32 :=
  Int32.ofInt
    ((lerp (Fp.ofInt start.toInt) (Fp.ofInt finish.toInt) t).truncate
      (-Text.maxInt32 - 1) Text.maxInt32)

/-- The object with the property at the fraction `t` of its way. -/
def apply (tween : Tween) (t : Single) (o : StageObject) : StageObject :=
  match tween with
  | alpha a b => { o with alpha := (lerp a b t).clamp 0 1 }
  | position ax ay bx by' => { o with x := coordinate ax bx t, y := coordinate ay by' t }
  | scale ax ay bx by' => { o with scaleX := lerp ax bx t, scaleY := lerp ay by' t }
  | rotation a b => { o with rotation := lerp a b t }
  | tint a b => { o with tint := some (a.lerp b t) }

end Tween

/-- What a task asks the player to do. -/
inductive Signal
  /-- The reveal reached a visible character, counted from one, that sounds. -/
  | letter (index : Nat)
  | backgroundSwapped (name : String) (locator : Option String)
  deriving DecidableEq, Repr

/-- An effect in progress. -/
inductive Task
  | tween (target : String) (tween : Tween)
  | fadeOut (target : String)
  /-- Covers the stage, swaps the background and uncovers it again. -/
  | crossfade (name : String) (locator : Option String) (swapped : Bool)
  | transition (start finish : Single)
  | flash (color : Color)
  | objectShake (target : String) (remaining : Nat)
  | screenShake (remaining : Nat)
  | reveal (text : List Char) (total shown interval elapsed : Nat)
  deriving DecidableEq

/-- The object a task works on. -/
def Task.target? : Task → Option String
  | .tween target _ | .fadeOut target | .objectShake target _ => some target
  | _ => none

/-- The identity of a task. -/
abbrev TaskId := Nat

/-- A task with its progress: `step` of `steps` ticks are done. -/
structure Slot where
  id : TaskId
  task : Task
  step : Nat
  steps : Nat
  easing : Easing
  deriving DecidableEq

namespace Slot

/-- One over another count, as a fraction. -/
def fraction (n m : Nat) : Single := Fp.ofInt n / Fp.ofInt m

/-- The eased fraction of a slot that has done its current step. -/
def progress (s : Slot) : Single := s.easing.apply (fraction s.step s.steps)

/-- Whether all steps are done. -/
def isDone (s : Slot) : Bool := s.steps ≤ s.step

/-- The outcome of a tick: the stage, the signals, and the slot unless it is complete. -/
structure Outcome where
  stage : Stage
  signals : List Signal
  next : Option Slot

/-- The outcome of a stepped task. -/
def stepped (s : Slot) (stage : Stage) (signals : List Signal) : Outcome :=
  ⟨stage, signals, if s.isDone then none else some s⟩

/-- The opacity of the cover after `step` of `2 * half` steps. -/
def coverAlpha (step half : Nat) : Single :=
  if step ≤ half then fraction step half else 1 - fraction (step - half) half

/-- The visible characters that sound as a reveal goes from `shown` to `due`: every
second one, beginning with the first. -/
def letters (shown due : Nat) : List Signal :=
  (((List.range (due + 1)).drop (shown + 1)).filter (· % 2 == 1)).map .letter

/-- One tick of `dt` milliseconds. -/
def advance (dt : Nat) (s : Slot) (stage : Stage) : Outcome :=
  let next := { s with step := s.step + 1 }
  match s.task with
  | .tween target tween =>
    next.stepped (stage.modifyObject target (tween.apply next.progress)) []
  | .fadeOut target =>
    let faded := stage.modifyObject target fun o =>
      { o with alpha := (1 - next.progress).clamp 0 1 }
    next.stepped (if next.isDone then faded.removeObject target else faded) []
  | .flash color =>
    let overlay := if next.isDone then .transparent
      else color.withAlpha (color.alpha * (1 - next.progress))
    next.stepped { stage with overlay := overlay } []
  | .transition start finish =>
    next.stepped { stage with transitionAlpha := lerp start finish next.progress } []
  | .crossfade name locator swapped =>
    let half := s.steps / 2
    let swapsNow := half < next.step && !swapped
    let stage := if swapsNow then stage.setBackground name locator else stage
    let alpha := if next.isDone then 0 else coverAlpha next.step half
    stepped { next with task := .crossfade name locator (swapped || swapsNow) }
      { stage with transitionAlpha := alpha }
      (if swapsNow then [.backgroundSwapped name locator] else [])
  | .objectShake target remaining =>
    if dt < remaining then ⟨stage, [], some { s with task := .objectShake target (remaining - dt) }⟩
    else ⟨stage.modifyObject target fun o => { o with shaking := false }, [], none⟩
  | .screenShake remaining =>
    if dt < remaining then ⟨stage, [], some { s with task := .screenShake (remaining - dt) }⟩
    else ⟨{ stage with screenShake := 0 }, [], none⟩
  | .reveal text total shown interval elapsed =>
    let due := min (elapsed / interval + 1) total
    let stage := if shown < due then
        { stage with message := String.ofList (Markup.revealed text due) }
      else stage
    let shown' := max shown due
    ⟨stage, letters shown due,
      if total ≤ shown' then none
      else some { s with task := .reveal text total shown' interval (elapsed + dt) }⟩

/-- The stage with the state a task ends in. -/
def finish (stage : Stage) (s : Slot) : Stage :=
  match s.task with
  | .tween target tween => stage.modifyObject target (tween.apply 1)
  | .fadeOut target => stage.removeObject target
  | .crossfade name locator swapped =>
    let stage := if swapped then stage else stage.setBackground name locator
    { stage with transitionAlpha := 0 }
  | .transition _ finish => { stage with transitionAlpha := finish }
  | .flash _ => { stage with overlay := .transparent }
  | .objectShake target _ => stage.modifyObject target fun o => { o with shaking := false }
  | .screenShake _ => { stage with screenShake := 0 }
  | .reveal text .. => { stage with message := String.ofList text }

end Slot

end VisualNovel
