import Mathlib.Algebra.Order.Floor.Div
import Mathlib.Algebra.Ring.Parity
import VisualNovel.Proofs.Stage.Endings

/-!
# When tasks end

A task has a clock of its own: steps, a time that is left, or the time since a reveal began.
Each of them says how many ticks of one length the task takes still, and a tick makes that
one less, whatever the stage and the other tasks. So a task ends with the tick that it is due
to end with, and the others go on in their order.

> `Slot.remaining_of_next`, `Slot.remaining_of_last`: a tick takes one from the ticks that
> remain, and ends a task when one remains.

> `Animator.ticks_running`: after so many ticks those tasks are in progress to which more
> remained; and a time comes when there are none.
-/

namespace VisualNovel

namespace Slot

variable {s t : Slot} {dt : Nat}

/-- Where the clock of a task in progress can stand. A stepped task has a step left, and a
crossfade shows its background with the first step of its second half; a reveal knows how
many characters its text shows, and has one of them left, if there are any. -/
def Timely (s : Slot) : Prop :=
  match s.task with
  | .tween .. | .fadeOut _ | .transition .. | .flash _ => s.step < s.steps
  | .crossfade _ _ swapped =>
    s.step < s.steps ∧ Even s.steps ∧ (swapped = true ↔ s.steps / 2 < s.step)
  | .objectShake .. | .screenShake _ => True
  | .reveal text total shown interval _ =>
    total = Markup.visibleLength text ∧ 0 < interval ∧ (0 < total → shown < total)

theorem Timely.next (h : s.Timely) (hn : s.next dt = some t) : t.Timely := by
  cases goes_of_next hn with
  | tween left | fadeOut left | transition left | flash left => exact left
  | @crossfade _ _ _ swapped _ _ _ left =>
    obtain ⟨-, even, swaps⟩ := h
    refine ⟨left, even, ?_⟩
    dsimp only at swaps ⊢
    cases swapped with
    | true =>
      have past := swaps.mp rfl
      simp only [Bool.true_or, true_iff]
      omega
    | false => simp
  | objectShake | screenShake => trivial
  | reveal left => exact ⟨h.1, h.2.1, fun _ => left⟩

/-- How many ticks of a length a task takes still. -/
def remaining (dt : Nat) (s : Slot) : Nat :=
  match s.task with
  | .objectShake _ remaining | .screenShake remaining => max 1 (remaining ⌈/⌉ dt)
  | .reveal text _ _ interval elapsed =>
    1 + ((Markup.visibleLength text - 1) * interval - elapsed) ⌈/⌉ dt
  | _ => s.steps - s.step

theorem ceilDiv_pos {time : Nat} (h : 0 < time) (hdt : 0 < dt) : 0 < time ⌈/⌉ dt := by
  rw [Nat.ceilDiv_eq_add_pred_div]
  exact Nat.div_pos (by omega) hdt

/-- A tick takes one from the ticks in a time. -/
theorem ceilDiv_sub {time : Nat} (h : 0 < time) (hdt : 0 < dt) :
    time ⌈/⌉ dt = (time - dt) ⌈/⌉ dt + 1 := by
  rw [Nat.ceilDiv_eq_add_pred_div, Nat.ceilDiv_eq_add_pred_div, ← Nat.add_div_right _ hdt]
  by_cases short : time ≤ dt
  · have one : (time + dt - 1) / dt = 1 := Nat.div_eq_of_lt_le (by omega) (by omega)
    have same : (time - dt + dt - 1 + dt) / dt = 1 := Nat.div_eq_of_lt_le (by omega) (by omega)
    rw [one, same]
  · congr 1
    omega

theorem remaining_pos (h : s.Timely) : 0 < s.remaining dt := by
  obtain ⟨id, task, step, steps, easing⟩ := s
  cases task with
  | tween | fadeOut | transition | flash => exact Nat.sub_pos_of_lt h
  | crossfade => exact Nat.sub_pos_of_lt h.1
  | objectShake | screenShake => exact Nat.lt_of_lt_of_le Nat.zero_lt_one (Nat.le_max_left 1 _)
  | reveal => exact Nat.lt_add_right _ Nat.zero_lt_one

/-- A character of a reveal is due later exactly if the last one is. -/
theorem due_lt_iff {total interval elapsed : Nat} (h : 0 < interval) :
    elapsed / interval + 1 < total ↔ 0 < (total - 1) * interval - elapsed := by
  rw [Nat.sub_pos_iff_lt, ← Nat.div_lt_iff_lt_mul h]
  exact Nat.lt_sub_iff_add_lt.symm

/-- A task that goes on after a tick has one tick less to go. -/
theorem remaining_of_next (h : s.Timely) (hdt : 0 < dt) (hn : s.next dt = some t) :
    s.remaining dt = t.remaining dt + 1 := by
  cases goes_of_next hn with
  | @tween _ _ _ step steps _ left | @fadeOut _ _ step steps _ left
  | @transition _ _ _ step steps _ left | @flash _ _ step steps _ left
  | @crossfade _ _ _ _ step steps _ left =>
    show steps - step = steps - (step + 1) + 1
    omega
  | @objectShake _ _ time _ _ _ left | @screenShake _ time _ _ _ left =>
    have first := ceilDiv_sub (show 0 < time by omega) hdt
    have rest := ceilDiv_pos (show 0 < time - dt by omega) hdt
    show max 1 (time ⌈/⌉ dt) = max 1 ((time - dt) ⌈/⌉ dt) + 1
    omega
  | @reveal _ text total shown interval elapsed _ _ _ left =>
    obtain ⟨length, positive, more⟩ := h
    have later := (due_lt_iff positive).mp (show elapsed / interval + 1 < total by omega)
    show 1 + ((Markup.visibleLength text - 1) * interval - elapsed) ⌈/⌉ dt =
      1 + ((Markup.visibleLength text - 1) * interval - (elapsed + dt)) ⌈/⌉ dt + 1
    rw [← length]
    rw [ceilDiv_sub later hdt, Nat.sub_sub, Nat.add_assoc]

/-- A stepped task ends with its last step. -/
theorem last_step {step steps : Nat} (left : step < steps)
    (hn : (if steps ≤ step + 1 then none else some s) = none) : steps - step = 1 := by
  split at hn
  next done => omega
  next => contradiction

/-- A task that ends with a tick had one to go. -/
theorem remaining_of_last (h : s.Timely) (hdt : 0 < dt) (hn : s.next dt = none) :
    s.remaining dt = 1 := by
  obtain ⟨id, task, step, steps, easing⟩ := s
  unfold next advance at hn
  cases task with
  | tween | fadeOut | transition | flash =>
    simp only [stepped_next] at hn
    exact last_step h hn
  | crossfade =>
    simp only [stepped_next] at hn
    exact last_step h.1 hn
  | objectShake _ time | screenShake time =>
    dsimp only at hn
    split at hn
    next => contradiction
    next ended =>
      -- What was left of the time is no more than this tick.
      have one : time ⌈/⌉ dt ≤ 1 := (ceilDiv_le_iff_le_mul hdt).mpr (by omega)
      exact Nat.max_eq_left one
  | reveal text total shown interval elapsed =>
    dsimp only at hn
    split at hn
    next whole =>
      obtain ⟨length, positive, more⟩ := h
      -- With the last letter shown no time is due: were some due, a letter would be.
      have due : ¬0 < (total - 1) * interval - elapsed := by
        rw [← due_lt_iff positive]
        intro later
        rcases le_max_iff.mp whole with all | all
        · exact absurd (more (Nat.zero_lt_of_lt later)) (Nat.not_lt.mpr all)
        · exact absurd later (Nat.not_lt.mpr (le_min_iff.mp all).1)
      show 1 + ((Markup.visibleLength text - 1) * interval - elapsed) ⌈/⌉ dt = 1
      rw [← length, Nat.eq_zero_of_not_pos due, zero_ceilDiv, Nat.add_zero]
    next => contradiction

end Slot

namespace Animator

variable {a : Animator} {dt : Nat}

theorem Built.timely (h : a.Built) : ∀ s ∈ a.slots, s.Timely := by
  induction h with
  | empty => nofun
  | tween _ _ _ _ _ ih => exact forall_start (fun s hs _ => ih s hs) (by show 0 < max _ 1; omega)
  | fadeOut _ _ _ _ ih | transition _ _ _ _ ih | flash _ _ _ _ ih =>
    exact forall_start (fun s hs _ => ih s hs) (by show 0 < max _ 1; omega)
  | crossfade _ _ _ half ih =>
    refine forall_start (fun s hs _ => ih s hs) ⟨?_, ?_, ?_⟩
    · show 0 < max _ 1
      omega
    · rw [Nat.max_eq_left (by omega)]
      exact even_two_mul _
    · simp
  | shakeObject _ _ _ ih | shakeScreen _ _ ih =>
    exact forall_start (fun s hs _ => ih s hs) trivial
  | reveal _ _ interval ih =>
    exact forall_start (fun s hs _ => ih s hs) ⟨rfl, by show 0 < max _ 1; omega, id⟩
  | cancel _ _ ih | cancelTarget _ _ ih => exact fun s hs => ih s (List.mem_filter.mp hs).1
  | cancelAll _ _ => nofun
  | tick _ _ _ ih => exact forall_tick fun s hs t next => (ih s hs).next next

/-- The tasks that go on after a tick are, in their order, those that had more than one
tick to go. -/
theorem running_next {ss : List Slot} (h : ∀ s ∈ ss, s.Timely) (hdt : 0 < dt) (k : Nat) :
    ((ss.filterMap (Slot.next dt)).filter (k < ·.remaining dt)).map Slot.id =
      (ss.filter (k + 1 < ·.remaining dt)).map Slot.id := by
  induction ss with
  | nil => rfl
  | cons s ss ih =>
    obtain ⟨timely, others⟩ := List.forall_mem_cons.mp h
    cases next : s.next dt with
    | none =>
      have last := Slot.remaining_of_last timely hdt next
      rw [List.filterMap_cons_none next, ih others, List.filter_cons_of_neg (by simp [last])]
    | some t =>
      have less := Slot.remaining_of_next timely hdt next
      have same := Slot.next_id next
      rw [List.filterMap_cons_some next, List.filter_cons, List.filter_cons, less]
      simp only [Nat.add_lt_add_iff_right]
      split
      next => rw [List.map_cons, List.map_cons, same, ih others]
      next => exact ih others

/-- After ticks of one length those tasks are in progress, in their order, to which more ticks
remained than that, whatever is on stage. And a time comes when none is left. -/
theorem ticks_running (h : a.Built) (hdt : 0 < dt) (stage : Stage) :
    (∀ k, (ticks dt k a stage).1.slots.map Slot.id =
      (a.slots.filter (k < ·.remaining dt)).map Slot.id) ∧
    ∃ k, (ticks dt k a stage).1.slots = [] := by
  refine ⟨fun k => ?_, h.sound.exists_ticks hdt stage⟩
  induction k generalizing a stage with
  | zero =>
    have all : a.slots.filter (0 < ·.remaining dt) = a.slots :=
      List.filter_eq_self.mpr fun s hs => by simpa using Slot.remaining_pos (h.timely s hs)
    rw [all]
    rfl
  | succ k ih =>
    calc (ticks dt (k + 1) a stage).1.slots.map Slot.id
      _ = ((a.tick dt stage).1.slots.filter (k < ·.remaining dt)).map Slot.id :=
        ih (h.tick dt stage) _
      _ = (a.slots.filter (k + 1 < ·.remaining dt)).map Slot.id := by
        rw [tick_slots]
        exact running_next h.timely hdt k

/-- A turn of two steps, a shake of 40 milliseconds and a line of three characters, one each
30 milliseconds: after three ticks of 16 milliseconds only the line goes on. -/
theorem ticks_running_line :
    let turning := (empty.tween "lamp" (.rotation 0 1) 2 .easeIn).1
    let a := ((turning.shakeScreen 40).1.reveal "<b>abc</b>" 30).1
    a.slots.map (Slot.remaining 16) = [2, 3, 5] ∧
      (ticks 16 3 a .empty).1.slots.map Slot.id = [3] := by
  intro turning a
  have word : 2 < twoPow 32 := by decide
  have built : a.Built :=
    ((Built.empty.tween "lamp" (.rotation 0 1) .easeIn word).shakeScreen 40).reveal "<b>abc</b>" 30
  have counts : a.slots.map (Slot.remaining 16) = [2, 3, 5] := by decide +kernel
  refine ⟨counts, ?_⟩
  rw [(ticks_running built (by decide) .empty).1 3]
  decide +kernel

end Animator

end VisualNovel
