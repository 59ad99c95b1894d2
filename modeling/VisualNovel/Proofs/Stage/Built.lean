import VisualNovel.Proofs.Stage.Writes
import VisualNovel.Proofs.Number.Rounding

/-!
# Animators that operations build

Every operation that starts a task first drops those whose place it takes, and a task
keeps what it contends with to its end. So of any two tasks in progress the later one
would not have taken the place of the earlier.

> `Animator.Built.sound`: the tasks in progress are underway, and apart.
-/

namespace VisualNovel

namespace Slot

variable {s t : Slot} {dt : Nat}

/-- What the course of a task relies on: a tween has steps left and few enough of them to
be told apart as numbers, and the letters of a reveal are some time apart. -/
def Underway (s : Slot) : Prop :=
  match s.task with
  | .tween .. => s.step < s.steps ∧ Fp.IsCount s.steps
  | .reveal _ _ _ interval _ => 0 < interval
  | _ => True

/-- A task that goes on stays underway. -/
theorem Underway.next (h : s.Underway) (hn : s.next dt = some t) : t.Underway := by
  cases goes_of_next hn with
  | tween left => exact ⟨left, h.2⟩
  | reveal _ => exact h
  | _ => trivial

/-- The later of two tasks would not have taken the place of the earlier. -/
def Apart (s t : Slot) : Prop := t.task.contends s.task = false

/-- Tasks that are apart stay so, since each keeps what it contends with. -/
theorem Apart.next {s' t' : Slot} (h : Apart s t) (hs : s.next dt = some s')
    (ht : t.next dt = some t') : Apart s' t' := by
  unfold Apart
  rw [(contends_next ht _).1, (contends_next hs _).2]
  exact h

end Slot

namespace Animator

variable {a : Animator}

/-- The animators that operations make out of the empty one. A tween counts its steps in
a word. -/
inductive Built : Animator → Prop
  | empty : Built .empty
  | tween {a : Animator} (h : Built a) (target : String) (f : Tween) {steps : Nat}
      (easing : Easing) (word : steps < twoPow 32) : Built (a.tween target f steps easing).1
  | fadeOut {a : Animator} (h : Built a) (target : String) (steps : Nat) (easing : Easing) :
      Built (a.fadeOut target steps easing).1
  | crossfade {a : Animator} (h : Built a) (name : String) (locator : Option String)
      (halfSteps : Nat) : Built (a.crossfade name locator halfSteps).1
  | transition {a : Animator} (h : Built a) (start finish : Single) (steps : Nat) :
      Built (a.transition start finish steps).1
  | flash {a : Animator} (h : Built a) (color : Color) (steps : Nat) (easing : Easing) :
      Built (a.flash color steps easing).1
  | shakeObject {a : Animator} (h : Built a) (target : String) (ms : Nat) :
      Built (a.shakeObject target ms).1
  | shakeScreen {a : Animator} (h : Built a) (ms : Nat) : Built (a.shakeScreen ms).1
  | reveal {a : Animator} (h : Built a) (text : String) (interval : Nat) :
      Built (a.reveal text interval).1
  | cancel {a : Animator} (h : Built a) (id : TaskId) : Built (a.cancel id)
  | cancelTarget {a : Animator} (h : Built a) (target : String) : Built (a.cancelTarget target)
  | cancelAll {a : Animator} (h : Built a) : Built a.cancelAll
  | tick {a : Animator} (h : Built a) (dt : Nat) (stage : Stage) : Built (a.tick dt stage).1

/-- What holds of the tasks in progress whatever operations made them. -/
structure Sound (a : Animator) : Prop where
  underway : ∀ s ∈ a.slots, s.Underway
  apart : a.slots.Pairwise Slot.Apart

/-- After a start, every task is one that was kept or the new one. -/
theorem forall_start {P : Slot → Prop} {test : Task → Bool} {task : Task} {steps : Nat}
    {easing : Easing} (old : ∀ s ∈ a.slots, test s.task = false → P s)
    (new : P ⟨a.lastId + 1, task, 0, max steps 1, easing⟩) :
    ∀ s ∈ ((a.drop test).push task steps easing).1.slots, P s := by
  intro s hs
  rcases List.mem_append.mp hs with kept | this
  · obtain ⟨member, other⟩ := List.mem_filter.mp kept
    exact old s member (by simpa using other)
  · cases List.mem_singleton.mp this
    exact new

/-- After a tick, every task is what is left of one before. -/
theorem forall_tick {P : Slot → Prop} {dt : Nat} {stage : Stage}
    (h : ∀ s ∈ a.slots, ∀ t, s.next dt = some t → P t) :
    ∀ t ∈ (a.tick dt stage).1.slots, P t := by
  intro t ht
  rw [tick_slots] at ht
  obtain ⟨s, hs, next⟩ := List.mem_filterMap.mp ht
  exact h s hs t next

/-- Leaving out tasks neither stops the others nor brings them together. -/
theorem Sound.sublist {b : Animator} (h : a.Sound) (sub : b.slots.Sublist a.slots) : b.Sound where
  underway := fun s hs => h.underway s (sub.mem hs)
  apart := h.apart.sublist sub

/-- A task that first drops those it contends with may be started. -/
theorem Sound.start (h : a.Sound) (task : Task) {steps : Nat} {easing : Easing}
    (fresh : Slot.Underway ⟨a.lastId + 1, task, 0, max steps 1, easing⟩) :
    ((a.drop task.contends).push task steps easing).1.Sound := by
  constructor
  · exact forall_start (fun s hs _ => h.underway s hs) fresh
  · refine List.pairwise_append.mpr ⟨h.apart.sublist List.filter_sublist,
      List.pairwise_singleton _ _, ?_⟩
    intro s hs t ht
    cases List.mem_singleton.mp ht
    simpa [Slot.Apart] using (List.mem_filter.mp hs).2

theorem Sound.tick (h : a.Sound) (dt : Nat) (stage : Stage) : (a.tick dt stage).1.Sound := by
  constructor
  · exact forall_tick fun s hs t next => (h.underway s hs).next next
  · rw [tick_slots]
    exact h.apart.filterMap _ fun s t apart s' hs t' ht => apart.next hs ht

/-- Every animator that operations build is sound. -/
theorem Built.sound (h : a.Built) : a.Sound := by
  induction h with
  | empty => exact ⟨nofun, List.Pairwise.nil⟩
  | tween _ target f easing word ih =>
    have count := Fp.IsCount.of_word word.le
    exact ih.start (.tween target f) ⟨count.pos, count⟩
  | fadeOut _ target steps easing ih => exact ih.start (.fadeOut target) trivial
  | crossfade _ name locator halfSteps ih =>
    exact ih.start (.crossfade name locator false) trivial
  | transition _ start finish steps ih => exact ih.start (.transition start finish) trivial
  | flash _ color steps easing ih => exact ih.start (.flash color) trivial
  | shakeObject _ target ms ih => exact ih.start (.objectShake target ms) trivial
  | shakeScreen _ ms ih => exact ih.start (.screenShake ms) trivial
  | reveal _ text interval ih =>
    exact ih.start (.reveal ..) (by show 0 < max _ _; omega)
  | cancel _ id ih => exact ih.sublist List.filter_sublist
  | cancelTarget _ target ih => exact ih.sublist List.filter_sublist
  | cancelAll _ ih => exact ih.sublist (List.nil_sublist _)
  | tick _ dt stage ih => exact ih.tick dt stage

end Animator

end VisualNovel
