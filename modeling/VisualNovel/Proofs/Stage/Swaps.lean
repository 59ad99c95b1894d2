import VisualNovel.Proofs.Stage.Scenery
import VisualNovel.Proofs.Stage.Unveiling

/-!
# Tasks that trade places

A task writes to its own object only, or only to the screen. Writes to different objects, and
writes to an object and to the screen, can be made in either order; so can the signals of such
tasks be given, as a task of an object gives none. So of two tasks in a row that are neither of
one object nor both of the screen, it does not matter which has its tick first. And what no
task works on, a tick leaves as it is.

> `Change.comm_of_name`, `Slot.name_of_mem_changes`: writes of different tasks trade places.

> `Animator.tick_independent`: what does not depend on the order of tasks, and what a tick
> does to objects.
-/

namespace VisualNovel

namespace Change

variable {c d : Change} {cs ds : List Change}

/-- The object that a write goes to, if it does not go to the screen. -/
def name? : Change → Option String
  | object name _ | removal name => some name
  | _ => none

/-- Writes to different objects can be made in either order, and so can those to an object and
to the screen. -/
theorem comm_of_name (h : c.name? ≠ d.name?) : Comm c d := by
  by_cases same : c.part = d.part
  · have objects : c.part = .objects := by
      -- Two writes to one part of the screen have no object, either of them.
      cases c <;> cases d <;> first | rfl | exact absurd rfl h | cases same
    refine comm_of_objects objects (same.symm.trans objects) ?_
    intro a f b g hc hd
    subst hc hd
    exact comm_object_object fun one => absurd (congrArg some one) h
  · exact comm_of_part same

/-- One write moves past others. -/
theorem applyAll_concat (h : ∀ d ∈ ds, Comm c d) (stage : Stage) :
    applyAll (c :: ds) stage = applyAll (ds ++ [c]) stage := by
  induction ds generalizing stage with
  | nil => rfl
  | cons d ds ih =>
    have past : Comm c d := h d List.mem_cons_self
    calc applyAll (c :: d :: ds) stage
        = applyAll ds (apply (apply stage c) d) := rfl
      _ = applyAll (c :: ds) (apply stage d) := by rw [past stage]; rfl
      _ = applyAll (ds ++ [c]) (apply stage d) := ih (fun e he => h e (List.mem_cons_of_mem d he)) _

/-- Two lists of writes trade places if each write of one does with each of the other. -/
theorem applyAll_comm (h : ∀ c ∈ cs, ∀ d ∈ ds, Comm c d) (stage : Stage) :
    applyAll (cs ++ ds) stage = applyAll (ds ++ cs) stage := by
  induction cs generalizing stage with
  | nil => rw [List.append_nil, List.nil_append]
  | cons c cs ih =>
    have rest : ∀ stage, applyAll (cs ++ ds) stage = applyAll (ds ++ cs) stage :=
      ih fun e he => h e (List.mem_cons_of_mem c he)
    calc applyAll (c :: (cs ++ ds)) stage
        = applyAll (ds ++ cs) (apply stage c) := rest (apply stage c)
      _ = applyAll cs (applyAll (c :: ds) stage) := applyAll_append ds cs _
      _ = applyAll cs (applyAll (ds ++ [c]) stage) := by
        rw [applyAll_concat (h c List.mem_cons_self)]
      _ = applyAll (ds ++ c :: cs) stage := by
        rw [← applyAll_append, List.append_assoc, List.singleton_append]

/-- What no write goes to stays as it is. -/
theorem find?_toObjects_of_name {name : String} (h : ∀ c ∈ cs, c.name? ≠ some name)
    (objects : Table StageObject) :
    (cs.foldl toObjects objects).find? name = objects.find? name := by
  induction cs generalizing objects with
  | nil => rfl
  | cons c cs ih =>
    refine (ih (fun d hd => h d (List.mem_cons_of_mem c hd)) _).trans ?_
    have other : c.name? ≠ some name := h c List.mem_cons_self
    cases c with
    | object a f =>
      have apart : name ≠ a := fun same => other (congrArg some same.symm)
      rw [toObjects, Table.find?_modify, if_neg apart]
    | removal a =>
      have apart : name ≠ a := fun same => other (congrArg some same.symm)
      rw [toObjects, Table.find?_erase, if_neg apart]
    | _ => rfl

/-- What is taken off is gone, as no write brings an object. -/
theorem contains_toObjects_iff {name : String} (objects : Table StageObject) :
    (cs.foldl toObjects objects).contains name = true ↔
      objects.contains name = true ∧ .removal name ∉ cs := by
  induction cs generalizing objects with
  | nil => exact ⟨fun h => ⟨h, List.not_mem_nil⟩, And.left⟩
  | cons c cs ih =>
    rw [List.foldl_cons, ih, List.mem_cons, not_or]
    cases c with
    | object a f =>
      rw [toObjects, Table.contains_modify]
      simp only [reduceCtorEq, not_false_eq_true, true_and]
    | removal a =>
      rw [toObjects, Table.contains_erase]
      simp only [Bool.and_eq_true, bne_iff_ne, removal.injEq, and_assoc]
    | _ => simp only [toObjects, reduceCtorEq, not_false_eq_true, true_and]

end Change

open Change

namespace Slot

variable {s t : Slot} {c : Change} {dt : Nat}

/-- A task writes to the object it works on, and to the screen if it works on none. -/
theorem name_of_mem_changes (h : c ∈ s.changes dt) : c.name? = s.task.target? := by
  obtain ⟨id, task, step, steps, easing⟩ := s
  unfold changes at h
  cases task <;>
    simp only [List.mem_append, List.mem_cons, List.mem_ite_nil_left, List.mem_ite_nil_right,
      List.not_mem_nil, or_false] at h
  case fadeOut => rcases h with rfl | ⟨_, rfl⟩ <;> rfl
  case crossfade => rcases h with ⟨_, rfl⟩ | rfl <;> rfl
  case tween | flash | transition => rw [h]; rfl
  case objectShake | screenShake | reveal => rw [h.2]; rfl

/-- A fade-out takes its object off on its last step, and no other task takes one off. -/
theorem removal_mem_changes_iff {name : String} :
    .removal name ∈ s.changes dt ↔ s.task = .fadeOut name ∧ s.steps ≤ s.step + 1 := by
  constructor
  · intro h
    have fades : s.task = .fadeOut name := removal_mem_changes h
    refine ⟨fades, ?_⟩
    unfold changes at h
    rw [fades] at h
    simp only [List.mem_cons, reduceCtorEq, false_or, List.mem_ite_nil_right, isDone,
      decide_eq_true_eq] at h
    exact h.1
  · rintro ⟨fades, last⟩
    unfold changes
    rw [fades]
    simp [isDone, last]

/-- Only tasks of the screen signal. -/
theorem signals_of_target {name : String} (h : s.task.target? = some name) :
    s.signals dt = [] := by
  obtain ⟨id, task, step, steps, easing⟩ := s
  unfold signals advance
  cases task with
  | tween | fadeOut => rfl
  | objectShake =>
    dsimp only
    split
    next => rfl
    next => rfl
  | _ => contradiction

/-- Of two tasks that are neither of one object nor both of the screen, one is of an object
and gives no signal. -/
theorem signals_comm (apart : s.task.target? ≠ t.task.target?) :
    s.signals dt ++ t.signals dt = t.signals dt ++ s.signals dt := by
  cases hs : s.task.target? with
  | some name => rw [signals_of_target hs, List.nil_append, List.append_nil]
  | none =>
    obtain ⟨name, ht⟩ := Option.ne_none_iff_exists'.mp (hs ▸ apart).symm
    rw [signals_of_target ht, List.nil_append, List.append_nil]

/-- The writes of two tasks that are neither of one object nor both of the screen trade
places. -/
theorem changes_comm (apart : s.task.target? ≠ t.task.target?) (stage : Stage) :
    applyAll (s.changes dt ++ t.changes dt) stage =
      applyAll (t.changes dt ++ s.changes dt) stage := by
  refine applyAll_comm (fun c hc d hd => comm_of_name ?_) stage
  rw [name_of_mem_changes hc, name_of_mem_changes hd]
  exact apart

end Slot

namespace Animator

theorem tick_signals (a : Animator) (dt : Nat) (stage : Stage) :
    (a.tick dt stage).2.2 = a.slots.flatMap (Slot.signals dt) :=
  tickSlots_signals dt a.slots stage

theorem tick_objects (a : Animator) (dt : Nat) (stage : Stage) :
    (a.tick dt stage).2.1.objects =
      (a.slots.flatMap (Slot.changes dt)).foldl toObjects stage.objects := by
  rw [tick_stage, applyAll_toObjects]

variable {before after : List Slot} {s t : Slot} {lastId : TaskId}

/-- The stage after a tick, with two tasks in a row. -/
theorem tick_stage_pair (dt : Nat) (stage : Stage) :
    ((⟨before ++ s :: t :: after, lastId⟩ : Animator).tick dt stage).2.1 =
      applyAll (after.flatMap (Slot.changes dt))
        (applyAll (s.changes dt ++ t.changes dt)
          (applyAll (before.flatMap (Slot.changes dt)) stage)) := by
  rw [tick_stage, List.flatMap_append, List.flatMap_cons, List.flatMap_cons, applyAll_append,
    ← List.append_assoc, applyAll_append]

/-- The signals of a tick, with two tasks in a row. -/
theorem tick_signals_pair (dt : Nat) (stage : Stage) :
    ((⟨before ++ s :: t :: after, lastId⟩ : Animator).tick dt stage).2.2 =
      before.flatMap (Slot.signals dt) ++
        ((s.signals dt ++ t.signals dt) ++ after.flatMap (Slot.signals dt)) := by
  rw [tick_signals, List.flatMap_append, List.flatMap_cons, List.flatMap_cons,
    ← List.append_assoc (s.signals dt)]

/-- The tasks that go on after a tick, with two in a row. -/
theorem tick_pair (dt : Nat) (stage : Stage) :
    ((⟨before ++ s :: t :: after, lastId⟩ : Animator).tick dt stage).1 =
      ⟨before.filterMap (Slot.next dt) ++
        ((s.next dt).toList ++ (t.next dt).toList ++ after.filterMap (Slot.next dt)), lastId⟩ := by
  have slots := tick_slots ⟨before ++ s :: t :: after, lastId⟩ dt stage
  rw [List.filterMap_append, filterMap_cons_toList, filterMap_cons_toList,
    ← List.append_assoc (s.next dt).toList] at slots
  rw [← slots]
  rfl

/-- Two tasks in a row that are neither of one object nor both of the screen can have their
ticks in either order: the stage and the signals are the same, and the same tasks go on, those
two in the order they had. An object is on stage after a tick if it was before and no fade-out
of it did its last step; one that no task works on is as it was. -/
theorem tick_independent (dt : Nat) (stage : Stage) :
    (∀ before s t after lastId, s.task.target? ≠ t.task.target? →
      let one := (⟨before ++ s :: t :: after, lastId⟩ : Animator).tick dt stage
      let other := (⟨before ++ t :: s :: after, lastId⟩ : Animator).tick dt stage
      one.2.1 = other.2.1 ∧ one.2.2 = other.2.2 ∧
        ∃ goingBefore goingAfter,
          one.1 = ⟨goingBefore ++
            ((s.next dt).toList ++ (t.next dt).toList ++ goingAfter), lastId⟩ ∧
          other.1 = ⟨goingBefore ++
            ((t.next dt).toList ++ (s.next dt).toList ++ goingAfter), lastId⟩) ∧
    ∀ (a : Animator) name,
      ((a.tick dt stage).2.1.objects.contains name = true ↔
        stage.objects.contains name = true ∧
          ∀ s ∈ a.slots, s.task = .fadeOut name → s.step + 1 < s.steps) ∧
      ((∀ s ∈ a.slots, s.task.target? ≠ some name) →
        (a.tick dt stage).2.1.objects.find? name = stage.objects.find? name) := by
  refine ⟨?_, fun a name => ⟨?_, ?_⟩⟩
  · intro before s t after lastId apart
    refine ⟨?_, ?_, before.filterMap (Slot.next dt), after.filterMap (Slot.next dt),
      tick_pair dt stage, tick_pair dt stage⟩
    · rw [tick_stage_pair, tick_stage_pair, Slot.changes_comm apart]
    · rw [tick_signals_pair, tick_signals_pair, Slot.signals_comm apart]
  · rw [tick_objects, contains_toObjects_iff]
    refine and_congr_right fun _ => ?_
    simp only [List.mem_flatMap, Slot.removal_mem_changes_iff, not_exists, not_and, Nat.not_le]
  · intro untouched
    rw [tick_objects]
    refine find?_toObjects_of_name (fun c hc => ?_) stage.objects
    obtain ⟨s, hs, hc⟩ := List.mem_flatMap.mp hc
    rw [Slot.name_of_mem_changes hc]
    exact untouched s hs

/-- A letter is revealed while a picture is on the last step of its fade-out and another
stands by. -/
theorem tick_independent_reveal :
    let fading : Slot := ⟨1, .fadeOut "p", 4, 5, .linear⟩
    let revealing : Slot := ⟨2, .reveal ['h', 'i'] 2 0 16 0, 0, 1, .linear⟩
    let stage := (Stage.empty.insertObject (.ofPlace "p" .image none 0 0)).insertObject
      (.ofPlace "q" .image none 0 0)
    let now := ((⟨[fading, revealing], 2⟩ : Animator).tick 16 stage).2.1
    fading.task.target? ≠ revealing.task.target? ∧
      now = ((⟨[revealing, fading], 2⟩ : Animator).tick 16 stage).2.1 ∧
      now.objects.contains "p" = false ∧ now.objects.find? "q" = stage.objects.find? "q" := by
  intro fading revealing stage now
  have apart : fading.task.target? ≠ revealing.task.target? := by decide
  obtain ⟨swaps, objects⟩ := tick_independent 16 stage
  refine ⟨apart, (swaps [] fading revealing [] 2 apart).1, ?_, ?_⟩
  · by_contra stays
    have going := ((objects ⟨[fading, revealing], 2⟩ "p").1.mp (by simpa using stays)).2
    exact absurd (going fading List.mem_cons_self rfl) (by decide)
  · refine (objects ⟨[fading, revealing], 2⟩ "q").2 fun s hs => ?_
    obtain rfl | rfl : s = fading ∨ s = revealing := by simpa using hs
    · decide
    · decide

end Animator

end VisualNovel
