import VisualNovel.Stage.Animator
import VisualNovel.Proofs.Stage.Change

/-!
# What tasks write

A tick of a task, and its end, write to the stage what the task alone determines. So a
tick of all tasks is one list of writes, and which tasks go on does not depend on the
stage.

> `Animator.tick_stage`, `Animator.finishAll_eq`: ticks and ends as lists of writes.

> `Slot.comm_of_contends`: a task's end can be written before or after a tick of any
> later task that did not take its place.
-/

namespace VisualNovel

open Change

namespace Slot

variable {s t : Slot} {c d : Change} {dt : Nat}

/-! ## One task -/

/-- What is left of a task after a tick. -/
def next (dt : Nat) (s : Slot) : Option Slot := (s.advance dt .empty).next

/-- Whether a task goes on, and how, has nothing to do with the stage. -/
theorem advance_next (dt : Nat) (s : Slot) (stage : Stage) :
    (s.advance dt stage).next = s.next dt := by
  obtain ⟨id, task, step, steps, easing⟩ := s
  unfold next advance
  cases task with
  | tween | fadeOut | crossfade | transition | flash | reveal => rfl
  | objectShake | screenShake =>
    dsimp only
    split
    next => rfl
    next => rfl

theorem stepped_next (s : Slot) (stage : Stage) (signals : List Signal) :
    (s.stepped stage signals).next = if s.steps ≤ s.step then none else some s := by
  unfold stepped isDone
  simp only [decide_eq_true_eq]

/-- How a task goes on after a tick: a stepped one if a step is left, a timed one if time
is, and a reveal if a character is. -/
inductive Goes (dt : Nat) : Slot → Slot → Prop
  | tween {id target f step steps easing} (left : step + 1 < steps) :
      Goes dt ⟨id, .tween target f, step, steps, easing⟩
        ⟨id, .tween target f, step + 1, steps, easing⟩
  | fadeOut {id target step steps easing} (left : step + 1 < steps) :
      Goes dt ⟨id, .fadeOut target, step, steps, easing⟩
        ⟨id, .fadeOut target, step + 1, steps, easing⟩
  | crossfade {id name locator swapped step steps easing} (left : step + 1 < steps) :
      Goes dt ⟨id, .crossfade name locator swapped, step, steps, easing⟩
        ⟨id, .crossfade name locator (swapped || (steps / 2 < step + 1 && !swapped)),
          step + 1, steps, easing⟩
  | transition {id start finish step steps easing} (left : step + 1 < steps) :
      Goes dt ⟨id, .transition start finish, step, steps, easing⟩
        ⟨id, .transition start finish, step + 1, steps, easing⟩
  | flash {id color step steps easing} (left : step + 1 < steps) :
      Goes dt ⟨id, .flash color, step, steps, easing⟩ ⟨id, .flash color, step + 1, steps, easing⟩
  | objectShake {id target remaining step steps easing} (left : dt < remaining) :
      Goes dt ⟨id, .objectShake target remaining, step, steps, easing⟩
        ⟨id, .objectShake target (remaining - dt), step, steps, easing⟩
  | screenShake {id remaining step steps easing} (left : dt < remaining) :
      Goes dt ⟨id, .screenShake remaining, step, steps, easing⟩
        ⟨id, .screenShake (remaining - dt), step, steps, easing⟩
  | reveal {id text total shown interval elapsed step steps easing}
      (left : max shown (min (elapsed / interval + 1) total) < total) :
      Goes dt ⟨id, .reveal text total shown interval elapsed, step, steps, easing⟩
        ⟨id, .reveal text total (max shown (min (elapsed / interval + 1) total)) interval
          (elapsed + dt), step, steps, easing⟩

/-- A task that goes on does so in one of the ways of its kind. -/
theorem goes_of_next {t : Slot} (h : s.next dt = some t) : Goes dt s t := by
  obtain ⟨id, task, step, steps, easing⟩ := s
  unfold next advance at h
  cases task with
  | objectShake target remaining =>
    dsimp only at h
    split at h
    next left => cases h; exact .objectShake left
    next => cases h
  | screenShake remaining =>
    dsimp only at h
    split at h
    next left => cases h; exact .screenShake left
    next => cases h
  | reveal text total shown interval elapsed =>
    dsimp only at h
    split at h
    next => cases h
    next left => cases h; exact .reveal (Nat.lt_of_not_le left)
  | _ =>
    simp only [stepped_next] at h
    split at h
    next => cases h
    next left =>
      cases h
      constructor
      exact Nat.lt_of_not_le left

/-- A task keeps its identity. -/
theorem next_id {t : Slot} (h : s.next dt = some t) : t.id = s.id := by
  cases goes_of_next h <;> rfl

/-- What a tick of a task writes. -/
def changes (dt : Nat) (s : Slot) : List Change :=
  let next := { s with step := s.step + 1 }
  match s.task with
  | .tween target tween => [.object target (tween.apply next.progress)]
  | .fadeOut target =>
    .object target (fun o => { o with alpha := (1 - next.progress).clamp 0 1 }) ::
      if next.isDone then [.removal target] else []
  | .flash color =>
    [.overlay (if next.isDone then .transparent
      else color.withAlpha (color.alpha * (1 - next.progress)))]
  | .transition start finish => [.cover (lerp start finish next.progress)]
  | .crossfade name locator swapped =>
    let half := s.steps / 2
    (if half < next.step && !swapped then [.background name locator] else []) ++
      [.cover (if next.isDone then 0 else coverAlpha next.step half)]
  | .objectShake target remaining =>
    if dt < remaining then [] else [.object target fun o => { o with shaking := false }]
  | .screenShake remaining => if dt < remaining then [] else [.shake 0]
  | .reveal text total shown interval elapsed =>
    let due := min (elapsed / interval + 1) total
    if shown < due then [.message (String.ofList (Markup.revealed text due))] else []

/-- A tick of a task writes what the task alone determines. -/
theorem advance_stage (dt : Nat) (s : Slot) (stage : Stage) :
    (s.advance dt stage).stage = applyAll (s.changes dt) stage := by
  obtain ⟨id, task, step, steps, easing⟩ := s
  unfold changes advance
  cases task with
  | tween | transition | flash => rfl
  | fadeOut | crossfade =>
    dsimp only [stepped]
    split
    next => rfl
    next => rfl
  | objectShake | screenShake | reveal =>
    dsimp only
    split
    next => rfl
    next => rfl

/-- What the end of a task writes. -/
def ending (s : Slot) : List Change :=
  match s.task with
  | .tween target tween => [.object target (tween.apply 1)]
  | .fadeOut target => [.removal target]
  | .crossfade name locator swapped =>
    (if swapped then [] else [.background name locator]) ++ [.cover 0]
  | .transition _ finish => [.cover finish]
  | .flash _ => [.overlay .transparent]
  | .objectShake target _ => [.object target fun o => { o with shaking := false }]
  | .screenShake _ => [.shake 0]
  | .reveal text .. => [.message (String.ofList text)]

/-- So does its end. -/
theorem finish_eq (stage : Stage) (s : Slot) : finish stage s = applyAll s.ending stage := by
  obtain ⟨id, task, step, steps, easing⟩ := s
  unfold finish ending
  cases task with
  | crossfade name locator swapped => cases swapped <;> rfl
  | tween | fadeOut | transition | flash | objectShake | screenShake | reveal => rfl

end Slot

/-! ## All tasks -/

theorem filterMap_cons_toList {α β : Type} (f : α → Option β) (a : α) (l : List α) :
    (a :: l).filterMap f = (f a).toList ++ l.filterMap f := by
  cases h : f a with
  | none => exact List.filterMap_cons_none h
  | some b => exact List.filterMap_cons_some h

namespace Animator

/-- Which tasks go on after a tick does not depend on the stage. -/
theorem tickSlots_slots (dt : Nat) (ss : List Slot) (stage : Stage) :
    (tickSlots dt ss stage).1 = ss.filterMap (Slot.next dt) := by
  induction ss generalizing stage with
  | nil => rfl
  | cons s ss ih =>
    dsimp only [tickSlots]
    rw [ih, Slot.advance_next, filterMap_cons_toList]

/-- A tick writes what its tasks write, in their order. -/
theorem tickSlots_stage (dt : Nat) (ss : List Slot) (stage : Stage) :
    (tickSlots dt ss stage).2.1 = applyAll (ss.flatMap (Slot.changes dt)) stage := by
  induction ss generalizing stage with
  | nil => rfl
  | cons s ss ih =>
    dsimp only [tickSlots]
    rw [ih, Slot.advance_stage, List.flatMap_cons, applyAll_append]

/-- The tasks that go on after a tick. -/
theorem tick_slots (a : Animator) (dt : Nat) (stage : Stage) :
    (a.tick dt stage).1.slots = a.slots.filterMap (Slot.next dt) :=
  tickSlots_slots dt a.slots stage

/-- A tick of an animator is one list of writes. -/
theorem tick_stage (a : Animator) (dt : Nat) (stage : Stage) :
    (a.tick dt stage).2.1 = applyAll (a.slots.flatMap (Slot.changes dt)) stage :=
  tickSlots_stage dt a.slots stage

/-- So is the end of all its tasks. -/
theorem finishAll_eq (a : Animator) (stage : Stage) :
    a.finishAll stage = applyAll (a.slots.flatMap Slot.ending) stage := by
  unfold finishAll
  generalize a.slots = ss
  induction ss generalizing stage with
  | nil => rfl
  | cons s ss ih =>
    rw [List.foldl_cons, ih, Slot.finish_eq, List.flatMap_cons, applyAll_append]

end Animator

/-! ## Tasks that take each other's place -/

namespace Task

/-- The tasks whose place a new task takes. -/
def contends : Task → Task → Bool
  | .tween target f => Animator.isTween target f.channel
  | .fadeOut target => Animator.isTween target .alpha
  | .crossfade .. => Animator.isCrossfade
  | .transition .. => Animator.isTransition
  | .flash .. => Animator.isFlash
  | .objectShake target _ => Animator.isObjectShake target
  | .screenShake _ => Animator.isScreenShake
  | .reveal .. => Animator.isReveal

/-- The part of the stage that a task is about. -/
def part : Task → Part
  | .tween .. | .fadeOut _ | .objectShake .. => .objects
  | .crossfade .. => .background
  | .transition .. => .cover
  | .flash _ => .overlay
  | .screenShake _ => .shake
  | .reveal .. => .message

/-- Of the tasks of one part of the screen, each takes the place of the one before. -/
theorem contends_of_part {s t : Task} (h : s.part = t.part) (screen : s.part ≠ .objects) :
    t.contends s = true := by
  cases s <;> cases t <;> first | rfl | contradiction

end Task

namespace Tween

/-- Tweens of different properties do not touch each other's. -/
theorem apply_comm {f g : Tween} (h : f.channel ≠ g.channel) (x y : Single) :
    g.apply y ∘ f.apply x = f.apply x ∘ g.apply y := by
  cases f <;> cases g <;> first | exact absurd rfl h | rfl

/-- A later value of a property hides an earlier one. -/
theorem apply_apply (f : Tween) (x y : Single) : f.apply y ∘ f.apply x = f.apply y := by
  cases f <;> rfl

end Tween

namespace Slot

variable {s t : Slot} {c d : Change} {dt : Nat}

/-- The tasks a task takes the place of, and those that take its place, are the same all
along its course. -/
theorem contends_next (h : s.next dt = some t) (u : Task) :
    t.task.contends u = s.task.contends u ∧ u.contends t.task = u.contends s.task := by
  cases goes_of_next h <;> exact ⟨rfl, by cases u <;> rfl⟩

/-- A fade of the cover goes on as one. -/
theorem isTransition_next (h : s.next dt = some t) :
    Animator.isTransition t.task = Animator.isTransition s.task :=
  (contends_next h (.transition 0 0)).2

/-- A crossfade goes on as one. -/
theorem isCrossfade_next (h : s.next dt = some t) :
    Animator.isCrossfade t.task = Animator.isCrossfade s.task :=
  (contends_next h (.crossfade "" none false)).2

/-- What the end of a task writes for good goes to the part the task is about. -/
theorem part_of_mem_ending (h : c ∈ s.ending) (lasts : c.lasts) : c.part = s.task.part := by
  obtain ⟨id, task, step, steps, easing⟩ := s
  cases task with
  | crossfade name locator swapped =>
    rcases List.mem_append.mp h with h | h
    · simp only [List.mem_ite_nil_left, List.mem_singleton] at h
      rw [h.2]
      rfl
    · cases List.mem_singleton.mp h
      contradiction
  | _ => cases List.mem_singleton.mp h; rfl

/-- So does what a tick of it writes for good. -/
theorem part_of_mem_changes (h : d ∈ t.changes dt) (lasts : d.lasts) :
    d.part = t.task.part := by
  obtain ⟨id, task, step, steps, easing⟩ := t
  unfold changes at h
  cases task <;>
    simp only [List.mem_append, List.mem_cons, List.mem_ite_nil_left, List.mem_ite_nil_right,
      List.not_mem_nil, or_false] at h
  case fadeOut target => rcases h with rfl | ⟨_, rfl⟩ <;> rfl
  case crossfade name locator swapped =>
    rcases h with ⟨_, rfl⟩ | rfl
    · rfl
    · contradiction
  case tween => rw [h]; rfl
  case flash => rw [h]; rfl
  case objectShake => rw [h.2]; rfl
  case screenShake => rw [h.2]; rfl
  case transition => rw [h] at lasts; contradiction
  case reveal => rw [h.2] at lasts; contradiction

/-- What the end of a task does to an object that stays. -/
theorem object_mem_ending {a : String} {f : StageObject → StageObject}
    (h : .object a f ∈ s.ending) :
    (∃ u, s.task = .tween a u ∧ f = u.apply 1) ∨
      ∃ r, s.task = .objectShake a r ∧ f = fun o => { o with shaking := false } := by
  obtain ⟨id, task, step, steps, easing⟩ := s
  unfold ending at h
  cases task <;>
    simp only [List.mem_append, List.mem_singleton, List.mem_ite_nil_left, reduceCtorEq,
      and_false, or_false, object.injEq] at h
  case tween target u => exact .inl ⟨u, by rw [h.1], h.2⟩
  case objectShake target remaining => exact .inr ⟨remaining, by rw [h.1], h.2⟩

/-- What a tick of a task does to an object that stays. -/
theorem object_mem_changes {b : String} {g : StageObject → StageObject}
    (h : .object b g ∈ t.changes dt) :
    (∃ u x, t.task = .tween b u ∧ g = u.apply x) ∨
      (∃ x, t.task = .fadeOut b ∧ g = fun o => { o with alpha := x }) ∨
        ∃ r, t.task = .objectShake b r ∧ g = fun o => { o with shaking := false } := by
  obtain ⟨id, task, step, steps, easing⟩ := t
  unfold changes at h
  cases task <;>
    simp only [List.mem_append, List.mem_cons, List.mem_ite_nil_left, List.mem_ite_nil_right,
      List.not_mem_nil, reduceCtorEq, and_false, or_false, object.injEq] at h
  case tween target u => exact .inl ⟨u, _, by rw [h.1], h.2⟩
  case fadeOut target => exact .inr (.inl ⟨_, by rw [h.1], h.2⟩)
  case objectShake target remaining => exact .inr (.inr ⟨remaining, by rw [h.2.1], h.2.2⟩)

/-- Only crossfades write the background. -/
theorem background_mem_changes {name : String} {locator : Option String}
    (h : .background name locator ∈ s.changes dt) : Animator.isCrossfade s.task := by
  obtain ⟨id, task, step, steps, easing⟩ := s
  unfold changes at h
  cases task with
  | crossfade => rfl
  | tween | fadeOut | transition | flash | objectShake | screenShake | reveal =>
    simp only [List.mem_cons, List.mem_ite_nil_left, List.mem_ite_nil_right, List.not_mem_nil,
      reduceCtorEq, and_false, or_false] at h

/-- The properties of one object that two tasks change are different ones. -/
theorem comm_objects (apart : t.task.contends s.task = false) {a b : String}
    {f g : StageObject → StageObject} (hf : .object a f ∈ s.ending)
    (hg : .object b g ∈ t.changes dt) : Comm (.object a f) (.object b g) := by
  refine comm_object_object fun same => ?_
  subst same
  rcases object_mem_ending hf with ⟨u, hs, rfl⟩ | ⟨r, hs, rfl⟩
  · rcases object_mem_changes hg with ⟨v, x, ht, rfl⟩ | ⟨x, ht, rfl⟩ | ⟨r, ht, rfl⟩
    · have other : u.channel ≠ v.channel := by
        simpa [hs, ht, Task.contends, Animator.isTween] using apart
      exact Tween.apply_comm other 1 x
    · have other : u.channel ≠ .alpha := by
        simpa [hs, ht, Task.contends, Animator.isTween] using apart
      cases u <;> first | exact absurd rfl other | rfl
    · cases u <;> rfl
  · rcases object_mem_changes hg with ⟨v, x, ht, rfl⟩ | ⟨x, ht, rfl⟩ | ⟨r, ht, rfl⟩
    · cases v <;> rfl
    · rfl
    · rfl

/-- The end of a task and a tick of a later one trade places, unless the later one would
have taken the place of the earlier. -/
theorem comm_of_contends (apart : t.task.contends s.task = false) (hc : c ∈ s.ending)
    (hd : d ∈ t.changes dt) (hcl : c.lasts) (hdl : d.lasts) : Comm c d := by
  by_cases same : c.part = d.part
  · have tasks : s.task.part = t.task.part := by
      rw [← part_of_mem_ending hc hcl, ← part_of_mem_changes hd hdl, same]
    by_cases objects : s.task.part = .objects
    · have first : c.part = .objects := (part_of_mem_ending hc hcl).trans objects
      refine comm_of_objects first (same.symm.trans first) fun a f b g hf hg => ?_
      exact comm_objects apart (hf ▸ hc) (hg ▸ hd)
    · rw [Task.contends_of_part tasks objects] at apart
      contradiction
  · exact comm_of_part same

end Slot

end VisualNovel
