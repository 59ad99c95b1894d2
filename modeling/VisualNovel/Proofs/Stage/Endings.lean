import VisualNovel.Proofs.Stage.Built

/-!
# Where effects end

To write down the end of every task at once is to let them all run out, whatever the
mix: a tick of a task is hidden by the end of what goes on of it, and that end can be
written before the ticks of the later tasks. So one tick moves no ending, and ticks run
every task out.

> `Slot.leaveSame_ending`: a tick and the end after it leave the same as the end.

> `Animator.Sound.finishAll_tick`: a tick does not change where the stage ends.

> `Animator.ticks_lasting_eq_finishAll`: ticking until no task is left ends there.
-/

namespace VisualNovel

open Change

namespace Slot

variable {s t : Slot} {dt : Nat}

/-! ## One task -/

/-- A task has done all it does when its steps are done. -/
theorem progress_last (easing : Easing) {steps : Nat} (count : Fp.IsCount steps) :
    easing.apply (fraction steps steps) = 1 := by
  rw [fraction, count.over_self, Easing.apply_one]

/-- The value a tween is brought to hides the one a tick gives it. -/
theorem leaveSame_tween (target : String) (f : Tween) (x : Single) :
    LeaveSame [.object target (f.apply x), .object target (f.apply 1)]
      [.object target (f.apply 1)] := by
  intro stage
  simp only [applyAll, List.foldl_cons, List.foldl_nil, apply, Stage.modifyObject,
    Table.modify_modify, Tween.apply_apply]

theorem leaveSame_overlay (c d : Color) : LeaveSame [.overlay c, .overlay d] [.overlay d] :=
  fun _ => rfl

/-- An object that is taken off need not have been changed. -/
theorem leaveSame_removal (target : String) (f : StageObject → StageObject) :
    LeaveSame [.object target f, .removal target] [.removal target] := by
  intro stage
  simp only [applyAll, List.foldl_cons, List.foldl_nil, apply, Stage.modifyObject,
    removeObject_eq, Table.erase_modify_same, Table.contains_modify]

/-- A tick of a task, and the end of what goes on of it, leave the same behind as its end. -/
theorem leaveSame_ending (h : s.Underway) (dt : Nat) :
    LeaveSame (s.changes dt ++ (s.next dt).toList.flatMap ending) s.ending := by
  obtain ⟨id, task, step, steps, easing⟩ := s
  unfold next advance changes
  cases task with
  | tween target f =>
    simp only [stepped_next]
    by_cases done : steps ≤ step + 1
    · have last : progress ⟨id, .tween target f, step + 1, steps, easing⟩ = 1 := by
        have all : steps = step + 1 := Nat.le_antisymm done h.1
        subst all
        exact progress_last easing h.2
      rw [if_pos done, last]
      exact .refl _
    · rw [if_neg done]
      exact leaveSame_tween target f _
  | fadeOut target =>
    simp only [stepped_next, isDone, decide_eq_true_eq]
    by_cases done : steps ≤ step + 1
    · rw [if_pos done, if_pos done]
      exact leaveSame_removal target _
    · rw [if_neg done, if_neg done]
      exact leaveSame_removal target _
  | crossfade name locator swapped =>
    simp only [stepped_next, isDone, decide_eq_true_eq]
    refine leaveSame_of_filter ?_
    by_cases now : steps / 2 < step + 1
    · rw [decide_eq_true now]
      by_cases done : steps ≤ step + 1
      · rw [if_pos done, if_pos done]
        cases swapped <;> rfl
      · rw [if_neg done, if_neg done]
        cases swapped <;> rfl
    · -- The background changes in the middle, so this is not the last step.
      have notDone : ¬steps ≤ step + 1 := by omega
      rw [decide_eq_false now, if_neg notDone, if_neg notDone]
      cases swapped <;> rfl
  | transition start finish =>
    simp only [stepped_next]
    refine leaveSame_of_filter ?_
    by_cases done : steps ≤ step + 1
    · rw [if_pos done]
      rfl
    · rw [if_neg done]
      rfl
  | flash color =>
    simp only [stepped_next, isDone, decide_eq_true_eq]
    by_cases done : steps ≤ step + 1
    · rw [if_pos done, if_pos done]
      exact .refl _
    · rw [if_neg done, if_neg done]
      exact leaveSame_overlay _ .transparent
  | objectShake target remaining =>
    dsimp only
    split
    next => exact .refl _
    next => exact .refl _
  | screenShake remaining =>
    dsimp only
    split
    next => exact .refl _
    next => exact .refl _
  | reveal text total shown interval elapsed =>
    dsimp only
    refine leaveSame_of_filter ?_
    by_cases more : shown < min (elapsed / interval + 1) total
    · rw [if_pos more]
      split <;> rfl
    · rw [if_neg more]
      split <;> rfl

/-! ## How long a task goes on -/

/-- A bound on what is left of a task: steps of a stepped one, time of a timed one. -/
def work (s : Slot) : Nat :=
  match s.task with
  | .objectShake _ remaining | .screenShake remaining => remaining
  | .reveal _ total _ interval elapsed => total * interval - elapsed
  | _ => s.steps - s.step

/-- A tick that takes time leaves less of a task. -/
theorem work_next (h : s.Underway) (hdt : 0 < dt) (hn : s.next dt = some t) :
    t.work < s.work := by
  cases goes_of_next hn with
  | @objectShake _ _ remaining _ _ _ left =>
    show remaining - dt < remaining
    omega
  | @screenShake _ remaining _ _ _ left =>
    show remaining - dt < remaining
    omega
  | @reveal _ _ total shown interval elapsed _ _ _ left =>
    -- Some character is not due yet.
    have undue : elapsed / interval < total := by omega
    have early : elapsed < total * interval := (Nat.div_lt_iff_lt_mul h).mp undue
    show total * interval - (elapsed + dt) < total * interval - elapsed
    omega
  | _ left => exact Nat.sub_lt_sub_left (Nat.lt_of_succ_lt left) (Nat.lt_succ_self _)

end Slot

namespace Animator

variable {a : Animator} {dt : Nat}

/-! ## A tick of all tasks -/

theorem leaveSame_slots {ss : List Slot} (underway : ∀ s ∈ ss, s.Underway)
    (apart : ss.Pairwise Slot.Apart) (dt : Nat) :
    LeaveSame (ss.flatMap (Slot.changes dt) ++ (ss.filterMap (Slot.next dt)).flatMap Slot.ending)
      (ss.flatMap Slot.ending) := by
  induction ss with
  | nil => exact .refl []
  | cons s ss ih =>
    have others : LeaveSame _ (ss.flatMap Slot.ending) :=
      ih (fun t ht => underway t (List.mem_cons_of_mem s ht)) apart.of_cons
    -- The end of what goes on of the first task, past the ticks of the others.
    have past : LeaveSame ((s.next dt).toList.flatMap Slot.ending ++ ss.flatMap (Slot.changes dt))
        (ss.flatMap (Slot.changes dt) ++ (s.next dt).toList.flatMap Slot.ending) := by
      refine leaveSame_comm fun c hc d hd hcl hdl => ?_
      obtain ⟨s', hs', hc⟩ := List.mem_flatMap.mp hc
      obtain ⟨t, ht, hd⟩ := List.mem_flatMap.mp hd
      have between : t.task.contends s'.task = false := by
        rw [(Slot.contends_next (Option.mem_toList.mp hs') _).2]
        exact List.rel_of_pairwise_cons apart ht
      exact Slot.comm_of_contends between hc hd hcl hdl
    have first : LeaveSame (s.changes dt ++ (s.next dt).toList.flatMap Slot.ending) s.ending :=
      Slot.leaveSame_ending (underway s List.mem_cons_self) dt
    rw [filterMap_cons_toList, List.flatMap_cons, List.flatMap_cons, List.flatMap_append]
    refine .trans ?_ (leaveSame_append first others)
    rw [List.append_assoc, List.append_assoc]
    refine leaveSame_append (.refl _) ?_
    rw [← List.append_assoc, ← List.append_assoc]
    exact leaveSame_append past.symm (.refl _)

/-- A tick does not change where the stage ends. -/
theorem Sound.finishAll_tick (h : a.Sound) (dt : Nat) (stage : Stage) :
    ((a.tick dt stage).1.finishAll (a.tick dt stage).2.1).lasting =
      (a.finishAll stage).lasting := by
  rw [finishAll_eq, finishAll_eq, tick_slots, tick_stage, ← applyAll_append]
  exact leaveSame_slots h.underway h.apart dt stage

/-- A bound on what is left of all tasks. -/
def work (ss : List Slot) : Nat := (ss.map fun s => s.work + 1).sum

/-- A tick that takes time leaves less of every task. -/
theorem work_filterMap_next {ss : List Slot} (underway : ∀ s ∈ ss, s.Underway) (hdt : 0 < dt) :
    work (ss.filterMap (Slot.next dt)) + ss.length ≤ work ss := by
  induction ss with
  | nil => exact Nat.le_refl 0
  | cons s ss ih =>
    have others := ih fun t ht => underway t (List.mem_cons_of_mem s ht)
    cases hn : s.next dt with
    | none =>
      rw [List.filterMap_cons_none hn]
      simp only [work, List.map_cons, List.sum_cons, List.length_cons] at others ⊢
      omega
    | some t =>
      have less := Slot.work_next (underway s List.mem_cons_self) hdt hn
      rw [List.filterMap_cons_some hn]
      simp only [work, List.map_cons, List.sum_cons, List.length_cons] at others ⊢
      omega

/-! ## Ticks to the end -/

/-- The tasks in progress and the stage after so many ticks. -/
def ticks (dt : Nat) : Nat → Animator → Stage → Animator × Stage
  | 0, a, stage => (a, stage)
  | k + 1, a, stage =>
    let (a, stage, _) := a.tick dt stage
    ticks dt k a stage

/-- Ticks that take time run every task out. -/
theorem Sound.exists_ticks (h : a.Sound) (hdt : 0 < dt) (stage : Stage) :
    ∃ k, (ticks dt k a stage).1.slots = [] := by
  induction hw : work a.slots using Nat.strong_induction_on generalizing a stage with
  | _ w ih =>
    by_cases none : a.slots = []
    · exact ⟨0, none⟩
    · have some : 0 < a.slots.length := List.length_pos_iff.mpr none
      have less : work (a.tick dt stage).1.slots < w := by
        have := work_filterMap_next h.underway hdt
        rw [tick_slots]
        omega
      obtain ⟨k, hk⟩ := ih _ less (h.tick dt stage) (a.tick dt stage).2.1 rfl
      exact ⟨k + 1, hk⟩

theorem Sound.finishAll_ticks (h : a.Sound) (dt k : Nat) (stage : Stage) :
    ((ticks dt k a stage).1.finishAll (ticks dt k a stage).2).lasting =
      (a.finishAll stage).lasting := by
  induction k generalizing a stage with
  | zero => rfl
  | succ k ih =>
    calc ((ticks dt (k + 1) a stage).1.finishAll (ticks dt (k + 1) a stage).2).lasting
      _ = ((a.tick dt stage).1.finishAll (a.tick dt stage).2.1).lasting := ih (h.tick dt stage) _
      _ = (a.finishAll stage).lasting := h.finishAll_tick dt stage

/-- Whatever operations made the tasks in progress, ticks that take time run them all
out, and then everything that lasts is as the ends of the tasks, written at once, leave
it. -/
theorem ticks_lasting_eq_finishAll (h : a.Built) (hdt : 0 < dt) (stage : Stage) :
    (∃ k, (ticks dt k a stage).1.slots = []) ∧
      ∀ k, (ticks dt k a stage).1.slots = [] →
        (ticks dt k a stage).2.lasting = (a.finishAll stage).lasting := by
  refine ⟨h.sound.exists_ticks hdt stage, fun k out => ?_⟩
  rw [← h.sound.finishAll_ticks dt k stage, finishAll, out]
  rfl

/-- An object that is off the stage after one tick and has a turn in progress for one
more, while the background changes and the screen shakes. -/
theorem ticks_lasting_turning_out :
    let turning := (empty.tween "ghost" (.rotation 0 1) 2 .easeIn).1
    let leaving := (turning.fadeOut "ghost" 1 .linear).1
    let a := ((leaving.crossfade "room" (some "bg/room") 1).1.shakeScreen 40).1
    let stage := Stage.empty.insertObject (.ofPlace "ghost" .image none 0 0)
    (ticks 16 3 a stage).1.slots = [] ∧
      (ticks 16 3 a stage).2.lasting = (a.finishAll stage).lasting := by
  intro turning leaving a stage
  have word : 2 < twoPow 32 := by decide
  have built : Built a :=
    (((Built.empty.tween "ghost" (.rotation 0 1) .easeIn word).fadeOut "ghost" 1
      .linear).crossfade "room" (some "bg/room") 1).shakeScreen 40
  have out : (ticks 16 3 a stage).1.slots = [] := by decide +kernel
  exact ⟨out, (ticks_lasting_eq_finishAll built (by decide) stage).2 3 out⟩

end Animator

end VisualNovel
