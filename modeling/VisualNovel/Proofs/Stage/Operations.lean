import VisualNovel.Proofs.Stage.Identity
import VisualNovel.Proofs.Stage.Schedule

/-!
# Any sequence of operations

Whoever plays a story asks an animator for one thing after another: to start a task, to drop
some, to take a tick. A start drops the tasks whose place the new one takes and puts the new
one at the end under an identity of its own; all other operations leave tasks out, or take
them on. So whatever the order of operations, tasks stand in the order of their identities, no
two of them contend, and the clock of each is where it can be.

> `Animator.performAll_issued`: identities are given out in ascending order.

> `Animator.Built.consistent`: what holds of the tasks in progress after any operations.

> `Animator.Words.performAll`: counts of steps stay words, if they are given as words.
-/

namespace VisualNovel

/-- Whether a task counts steps. -/
def Task.isStepped : Task → Bool
  | .tween .. | .fadeOut _ | .crossfade .. | .transition .. | .flash _ => true
  | .objectShake .. | .screenShake _ | .reveal .. => false

namespace Animator

/-- What can be asked of an animator. -/
inductive Operation
  | tween (target : String) (f : Tween) (steps : Nat) (easing : Easing)
  | fadeOut (target : String) (steps : Nat) (easing : Easing)
  | crossfade (name : String) (locator : Option String) (halfSteps : Nat)
  | transition (start finish : Single) (steps : Nat)
  | flash (color : Color) (steps : Nat) (easing : Easing)
  | shakeObject (target : String) (ms : Nat)
  | shakeScreen (ms : Nat)
  | reveal (text : String) (interval : Nat)
  | cancel (id : TaskId)
  | cancelTarget (target : String)
  | cancelAll
  | tick (dt : Nat) (stage : Stage)

/-- Counts of steps are words, and so is twice the count of half of the steps. -/
def Operation.InRange : Operation → Prop
  | tween _ _ steps _ | fadeOut _ steps _ | transition _ _ steps | flash _ steps _ =>
    steps < twoPow 32
  | crossfade _ _ halfSteps => halfSteps < twoPow 31
  | _ => True

/-- The animator after an operation, and the identity that was given to a new task. -/
def perform (a : Animator) : Operation → Animator × Option TaskId
  | .tween target f steps easing => (a.tween target f steps easing).map id some
  | .fadeOut target steps easing => (a.fadeOut target steps easing).map id some
  | .crossfade name locator halfSteps => (a.crossfade name locator halfSteps).map id some
  | .transition start finish steps => (a.transition start finish steps).map id some
  | .flash color steps easing => (a.flash color steps easing).map id some
  | .shakeObject target ms => (a.shakeObject target ms).map id some
  | .shakeScreen ms => (a.shakeScreen ms).map id some
  | .reveal text interval => (a.reveal text interval).map id some
  | .cancel task => (a.cancel task, none)
  | .cancelTarget target => (a.cancelTarget target, none)
  | .cancelAll => (a.cancelAll, none)
  | .tick dt stage => ((a.tick dt stage).1, none)

/-- The animator after operations in order, and the identities that were given out. -/
def performAll : List Operation → Animator → Animator × List TaskId
  | [], a => (a, [])
  | op :: ops, a =>
    let (a, given) := a.perform op
    let (a, issued) := performAll ops a
    (a, given.toList ++ issued)

variable {a : Animator} {op : Operation}

/-- An operation with counts in range leaves an animator that could have been built. -/
theorem Built.perform (h : a.Built) (inRange : op.InRange) : (a.perform op).1.Built := by
  cases op with
  | tween target f steps easing => exact h.tween target f easing inRange
  | fadeOut target steps easing => exact h.fadeOut target steps easing
  | crossfade name locator halfSteps => exact h.crossfade name locator halfSteps
  | transition start finish steps => exact h.transition start finish steps
  | flash color steps easing => exact h.flash color steps easing
  | shakeObject target ms => exact h.shakeObject target ms
  | shakeScreen ms => exact h.shakeScreen ms
  | reveal text interval => exact h.reveal text interval
  | cancel id => exact h.cancel id
  | cancelTarget target => exact h.cancelTarget target
  | cancelAll => exact h.cancelAll
  | tick dt stage => exact h.tick dt stage

/-- So do operations in order. -/
theorem Built.performAll (h : a.Built) {ops : List Operation}
    (inRange : ∀ op ∈ ops, op.InRange) : (performAll ops a).1.Built := by
  induction ops generalizing a with
  | nil => exact h
  | cons op ops ih =>
    obtain ⟨first, rest⟩ := List.forall_mem_cons.mp inRange
    exact ih (h.perform first) rest

/-! ## Identities -/

/-- An operation gives out the next identity, or none. -/
theorem perform_lastId (a : Animator) (op : Operation) :
    (a.perform op).2 = some (a.lastId + 1) ∧ (a.perform op).1.lastId = a.lastId + 1 ∨
      (a.perform op).2 = none ∧ (a.perform op).1.lastId = a.lastId := by
  cases op with
  | tween | fadeOut | crossfade | transition | flash | shakeObject | shakeScreen | reveal =>
    exact .inl ⟨rfl, rfl⟩
  | cancel | cancelTarget | cancelAll | tick => exact .inr ⟨rfl, rfl⟩

/-- An operation adds tasks with new identities only. -/
theorem Grows.perform (a : Animator) (op : Operation) : a.Grows (a.perform op).1 := by
  cases op with
  | cancel id => exact .cancel a id
  | cancelTarget target => exact .cancelTarget a target
  | cancelAll => exact .of_sublist (List.nil_sublist _) rfl
  | tick dt stage =>
    have next := Grows.next a dt
    rwa [← tick_slots a dt stage] at next
  | _ => exact .start ..

/-- Identities are given out one after the other. -/
theorem performAll_issued (ops : List Operation) (a : Animator) :
    ∃ count, (performAll ops a).2 = List.range' (a.lastId + 1) count := by
  induction ops generalizing a with
  | nil => exact ⟨0, rfl⟩
  | cons op ops ih =>
    obtain ⟨count, rest⟩ := ih (a.perform op).1
    show ∃ count, (a.perform op).2.toList ++ (performAll ops (a.perform op).1).2 =
      List.range' (a.lastId + 1) count
    rcases a.perform_lastId op with ⟨given, last⟩ | ⟨given, last⟩
    · refine ⟨count + 1, ?_⟩
      rw [rest, given, last, List.range'_succ]
      rfl
    · refine ⟨count, ?_⟩
      rw [rest, given, last]
      rfl

/-- Tasks stand in the order of their identities, which were all given out. -/
structure Ordered (a : Animator) : Prop where
  ascending : a.slots.Pairwise fun s t => s.id < t.id
  issued : a.Issued

/-- The order is kept when tasks are left out. -/
theorem Ordered.sublist {b : Animator} (h : a.Ordered) (slots : b.slots.Sublist a.slots)
    (lastId : b.lastId = a.lastId) : b.Ordered where
  ascending := h.ascending.sublist slots
  issued := (Grows.of_sublist slots lastId).issued h.issued

/-- A new task comes last, under the greatest identity. -/
theorem Ordered.start (h : a.Ordered) (test : Task → Bool) (task : Task) (steps : Nat)
    (easing : Easing) : ((a.drop test).push task steps easing).1.Ordered where
  ascending := by
    refine List.pairwise_append.mpr ⟨h.ascending.sublist List.filter_sublist,
      List.pairwise_singleton _ _, fun s hs t ht => ?_⟩
    cases List.mem_singleton.mp ht
    exact Nat.lt_succ_of_le (h.issued s (List.mem_of_mem_filter hs))
  issued := (Grows.start a test task steps easing).issued h.issued

/-- A tick leaves out the tasks that end and keeps the order of the others. -/
theorem Ordered.tick (h : a.Ordered) (dt : Nat) (stage : Stage) : (a.tick dt stage).1.Ordered where
  ascending := by
    rw [tick_slots]
    refine h.ascending.filterMap _ fun s t before s' hs t' ht => ?_
    rw [Slot.next_id hs, Slot.next_id ht]
    exact before
  issued := by
    refine forall_tick fun s hs t next => ?_
    rw [Slot.next_id next]
    exact h.issued s hs

/-- Every animator that can be built is in order. -/
theorem Built.ordered (h : a.Built) : a.Ordered := by
  induction h with
  | empty => exact ⟨List.Pairwise.nil, nofun⟩
  | tween | fadeOut | crossfade | transition | flash | shakeObject | shakeScreen | reveal =>
    exact Ordered.start ‹_› ..
  | cancel _ _ ih | cancelTarget _ _ ih => exact ih.sublist List.filter_sublist rfl
  | cancelAll _ ih => exact ih.sublist (List.nil_sublist _) rfl
  | tick _ dt stage ih => exact ih.tick dt stage

/-! ## Tasks that take each other's place -/

/-- Of tasks whose place one task would take, each would take the other's. -/
theorem contends_of_contends {s t u : Task} (hs : u.contends s = true)
    (ht : u.contends t = true) : t.contends s = true := by
  cases u with
  | tween target f =>
    cases t with
    | tween other g =>
      obtain ⟨rfl, same⟩ : other = target ∧ g.channel = f.channel := by
        simpa [Task.contends, isTween] using ht
      show isTween other g.channel s = true
      rw [same]
      exact hs
    | _ => contradiction
  | fadeOut target =>
    cases t with
    | tween other g =>
      obtain ⟨rfl, same⟩ : other = target ∧ g.channel = .alpha := by
        simpa [Task.contends, isTween] using ht
      show isTween other g.channel s = true
      rw [same]
      exact hs
    | _ => contradiction
  | objectShake target left =>
    cases t with
    | objectShake other left' =>
      obtain rfl : other = target := by simpa [Task.contends, isObjectShake] using ht
      exact hs
    | _ => contradiction
  -- Of a kind of task that the whole screen has, any one takes the place of any other.
  | crossfade => cases t with | crossfade => exact hs | _ => contradiction
  | transition => cases t with | transition => exact hs | _ => contradiction
  | flash => cases t with | flash => exact hs | _ => contradiction
  | screenShake => cases t with | screenShake => exact hs | _ => contradiction
  | reveal => cases t with | reveal => exact hs | _ => contradiction

/-- Of elements that exclude each other at most one passes a test. -/
theorem countP_le_one {α : Type} {l : List α} {R : α → α → Prop} {p : α → Bool}
    (h : l.Pairwise R) (alone : ∀ x y, R x y → p x = true → p y = false) :
    l.countP p ≤ 1 := by
  induction h with
  | nil => exact Nat.zero_le 1
  | @cons x l related _ ih =>
    rw [List.countP_cons]
    by_cases this : p x = true
    · have others : l.countP p = 0 :=
        List.countP_eq_zero.mpr fun y hy => by simp [alone x y (related y hy) this]
      rw [others, if_pos this]
    · rw [if_neg this]
      exact ih

/-- There is one task at most whose place a task would take. -/
theorem Sound.alone (h : a.Sound) (task : Task) :
    a.slots.countP (fun s => task.contends s.task) ≤ 1 := by
  refine countP_le_one h.apart fun s t apart hs => ?_
  by_contra both
  have := contends_of_contends hs ((Bool.not_eq_false _).mp both)
  rw [apart] at this
  contradiction

/-! ## Consistent tasks -/

/-- Tasks that neither share an identity nor contend, each with its clock where it can be. -/
structure Consistent (a : Animator) : Prop where
  ascending : a.slots.Pairwise fun s t => s.id < t.id
  tween : ∀ target channel, a.slots.countP (fun s => isTween target channel s.task) ≤ 1
  objectShake : ∀ target, a.slots.countP (fun s => isObjectShake target s.task) ≤ 1
  crossfade : a.slots.countP (fun s => isCrossfade s.task) ≤ 1
  transition : a.slots.countP (fun s => isTransition s.task) ≤ 1
  flash : a.slots.countP (fun s => isFlash s.task) ≤ 1
  screenShake : a.slots.countP (fun s => isScreenShake s.task) ≤ 1
  reveal : a.slots.countP (fun s => isReveal s.task) ≤ 1
  steps : ∀ s ∈ a.slots, s.task.isStepped = true → s.step < s.steps
  halves : ∀ s ∈ a.slots, ∀ name locator swapped, s.task = .crossfade name locator swapped →
    Even s.steps ∧ (swapped = true ↔ s.steps / 2 < s.step)

/-- All that is said of tasks in progress holds of every animator that can be built. -/
theorem Built.consistent (h : a.Built) : a.Consistent where
  ascending := h.ordered.ascending
  tween := by
    intro target channel
    -- Any tween of the channel stands for all that contend there.
    obtain ⟨f, rfl⟩ : ∃ f : Tween, f.channel = channel := by
      cases channel with
      | alpha => exact ⟨.alpha 0 0, rfl⟩
      | position => exact ⟨.position 0 0 0 0, rfl⟩
      | scale => exact ⟨.scale 0 0 0 0, rfl⟩
      | rotation => exact ⟨.rotation 0 0, rfl⟩
      | tint => exact ⟨.tint .white .white, rfl⟩
    exact h.sound.alone (.tween target f)
  objectShake := fun target => h.sound.alone (.objectShake target 0)
  crossfade := h.sound.alone (.crossfade "" none false)
  transition := h.sound.alone (.transition 0 0)
  flash := h.sound.alone (.flash .white)
  screenShake := h.sound.alone (.screenShake 0)
  reveal := h.sound.alone (.reveal [] 0 0 0 0)
  steps := by
    intro s hs stepped
    obtain ⟨id, task, step, steps, easing⟩ := s
    have timely := h.timely _ hs
    cases task with
    | tween | fadeOut | transition | flash => exact timely
    | crossfade => exact timely.1
    | objectShake | screenShake | reveal => contradiction
  halves := by
    intro s hs name locator swapped task
    have timely := h.timely s hs
    unfold Slot.Timely at timely
    rw [task] at timely
    exact timely.2

/-! ## Counts of steps -/

/-- All counts of steps are words. -/
def Words (a : Animator) : Prop := ∀ s ∈ a.slots, s.steps < twoPow 32

theorem Words.start (h : a.Words) (test : Task → Bool) (task : Task) {steps : Nat}
    (word : steps < twoPow 32) (easing : Easing) :
    ((a.drop test).push task steps easing).1.Words :=
  forall_start (fun s hs _ => h s hs) (max_lt word (by decide))

/-- An operation in range counts steps in words. -/
theorem Words.perform (h : a.Words) (inRange : op.InRange) : (a.perform op).1.Words := by
  have one : 1 < twoPow 32 := by decide
  cases op with
  | tween | fadeOut | transition | flash => exact h.start _ _ inRange _
  | crossfade name locator halfSteps =>
    have twice : 2 * twoPow 31 = twoPow 32 := by decide
    have positive : 1 < twoPow 31 := by decide
    have half : halfSteps < twoPow 31 := inRange
    exact h.start _ _ (by omega) _
  | shakeObject | shakeScreen | reveal => exact h.start _ _ one _
  | cancel | cancelTarget => exact fun s hs => h s (List.mem_of_mem_filter hs)
  | cancelAll => nofun
  | tick dt stage =>
    refine forall_tick fun s hs t next => ?_
    have same : t.steps = s.steps := by cases Slot.goes_of_next next <;> rfl
    rw [same]
    exact h s hs

/-- So do operations in order. -/
theorem Words.performAll (h : a.Words) {ops : List Operation}
    (inRange : ∀ op ∈ ops, op.InRange) : (performAll ops a).1.Words := by
  induction ops generalizing a with
  | nil => exact h
  | cons op ops ih =>
    obtain ⟨first, rest⟩ := List.forall_mem_cons.mp inRange
    exact ih (h.perform first) rest

end Animator

end VisualNovel
