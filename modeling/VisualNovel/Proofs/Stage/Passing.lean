import VisualNovel.Proofs.Stage.Scenery

/-!
# Effects that pass

A shake and a flash are put on stage at once and taken off by a task, many ticks later. No other
task touches them, and a tick of this one leaves the effect on only if the task goes on. So what
is on after a tick of all tasks has a task in progress, if it had one before.

> `Passing.on_tick`: an effect that is on after a tick has a task that goes on.
-/

namespace VisualNovel

open Change

/-- An effect that is put on at once and taken off by a task. -/
inductive Passing
  | objectShake (name : String)
  | screenShake
  | flash
  deriving DecidableEq, Repr

namespace Passing

variable {e : Passing} {s t : Slot} {c : Change} {dt : Nat} {stage : Stage}

/-- The effect is on. -/
def On (stage : Stage) : Passing → Prop
  | objectShake name => ∃ o, stage.objects.find? name = some o ∧ o.shaking = true
  | screenShake => stage.screenShake ≠ 0
  | flash => stage.overlay ≠ .transparent

/-- Whether a task takes the effect off at its end. -/
def liftedBy : Passing → Task → Bool
  | objectShake name => Animator.isObjectShake name
  | screenShake => Animator.isScreenShake
  | flash => Animator.isFlash

/-- Nothing but the objects, the overlay and the shake of the screen matters to an effect. -/
theorem On.congr {stage' : Stage} (on : e.On stage') (objects : stage'.objects = stage.objects)
    (overlay : stage'.overlay = stage.overlay)
    (shake : stage'.screenShake = stage.screenShake) : e.On stage := by
  cases e with
  | objectShake name =>
    unfold On
    rw [← objects]
    exact on
  | screenShake =>
    unfold On
    rw [← shake]
    exact on
  | flash =>
    unfold On
    rw [← overlay]
    exact on

/-- A task that takes an effect off does so to its end. -/
theorem liftedBy_next (h : s.next dt = some t) : e.liftedBy t.task = e.liftedBy s.task := by
  cases e with
  | objectShake name => exact (Slot.contends_next h (.objectShake name 0)).2
  | screenShake => exact (Slot.contends_next h (.screenShake 0)).2
  | flash => exact (Slot.contends_next h (.flash .transparent)).2

/-- The tasks that take an effect off. -/
inductive Lifts : Passing → Task → Prop
  | objectShake (name : String) (remaining : Nat) :
      Lifts (.objectShake name) (.objectShake name remaining)
  | screenShake (remaining : Nat) : Lifts .screenShake (.screenShake remaining)
  | flash (color : Color) : Lifts .flash (.flash color)

theorem lifts_of_liftedBy {task : Task} (h : e.liftedBy task = true) : e.Lifts task := by
  cases e with
  | objectShake name =>
    cases task with
    | objectShake target remaining =>
      obtain rfl : target = name := by simpa [liftedBy, Animator.isObjectShake] using h
      exact .objectShake target remaining
    | _ => cases h
  | screenShake =>
    cases task with
    | screenShake remaining => exact .screenShake remaining
    | _ => cases h
  | flash =>
    cases task with
    | flash color => exact .flash color
    | _ => cases h

/-- A task takes the place of one that takes an effect off only if it does so itself. -/
theorem liftedBy_of_contends {old task : Task} (lifts : e.liftedBy old = true)
    (contends : task.contends old = true) : e.liftedBy task = true := by
  cases lifts_of_liftedBy lifts with
  | objectShake name remaining =>
    cases task with
    | objectShake target remaining' =>
      obtain rfl : name = target := by
        simpa [Task.contends, Animator.isObjectShake] using contends
      exact lifts
    | _ => cases contends
  | screenShake remaining =>
    cases task with
    | screenShake => rfl
    | _ => cases contends
  | flash color =>
    cases task with
    | flash => rfl
    | _ => cases contends

/-- Neither a reveal nor a fade of the cover takes an effect off. -/
theorem part_ne_of_liftedBy {task : Task} (h : e.liftedBy task = true) :
    task.part ≠ .message ∧ task.part ≠ .cover := by
  cases lifts_of_liftedBy h <;> exact ⟨nofun, nofun⟩

/-- Of the tasks of an object, only the one that ends its shaking takes an effect off. -/
theorem target?_of_liftedBy {task : Task} (h : e.liftedBy task = true) {name : String}
    (target : task.target? = some name) : e = .objectShake name := by
  cases lifts_of_liftedBy h with
  | objectShake => cases target; rfl
  | screenShake => cases target
  | flash => cases target

/-! ## Ticks -/

/-- Changing an object puts no effect on, unless it begins to shake. -/
theorem on_of_modify {name : String} {f : StageObject → StageObject}
    (keeps : ∀ o, (f o).shaking = true → o.shaking = true)
    (on : e.On (stage.modifyObject name f)) : e.On stage := by
  cases e with
  | objectShake other =>
    obtain ⟨o, found, shakes⟩ := on
    rw [Stage.modifyObject, Table.find?_modify] at found
    split at found
    next =>
      obtain ⟨before, here, rfl⟩ := Option.map_eq_some_iff.mp found
      exact ⟨before, here, keeps before shakes⟩
    next => exact ⟨o, found, shakes⟩
  | _ => exact on

/-- Neither does taking one off. -/
theorem on_of_remove {name : String} (on : e.On (stage.removeObject name)) : e.On stage := by
  rw [removeObject_eq] at on
  cases e with
  | objectShake other =>
    obtain ⟨o, found, shakes⟩ := on
    rw [Table.find?_erase] at found
    split at found
    next => contradiction
    next => exact ⟨o, found, shakes⟩
  | _ => exact on

/-- A task puts no effect on, but for the one that it takes off at its end. -/
theorem on_of_apply (h : c ∈ s.changes dt) (other : e.liftedBy s.task = false)
    (on : e.On (apply stage c)) : e.On stage := by
  cases c with
  | object name f =>
    refine on_of_modify (fun o shakes => ?_) on
    rcases Slot.object_mem_changes h with ⟨u, x, -, rfl⟩ | ⟨x, -, rfl⟩ | ⟨left, -, rfl⟩
    · cases u <;> exact shakes
    · exact shakes
    · cases shakes
  | removal name => exact on_of_remove on
  | overlay color =>
    cases e with
    | flash =>
      have part : s.task.part = .overlay := (Slot.part_of_mem_changes h rfl).symm
      cases task : s.task with
      | flash => rw [task] at other; cases other
      | _ => rw [task] at part; cases part
    | _ => exact on
  | shake amount =>
    cases e with
    | screenShake =>
      have part : s.task.part = .shake := (Slot.part_of_mem_changes h rfl).symm
      cases task : s.task with
      | screenShake => rw [task] at other; cases other
      | _ => rw [task] at part; cases part
    | _ => exact on
  | background | cover | message => exact on.congr rfl rfl rfl

theorem on_of_applyAll {cs : List Change} (h : ∀ c ∈ cs, c ∈ s.changes dt)
    (other : e.liftedBy s.task = false) (on : e.On (applyAll cs stage)) : e.On stage := by
  induction cs generalizing stage with
  | nil => exact on
  | cons c cs ih =>
    obtain ⟨first, rest⟩ := List.forall_mem_cons.mp h
    exact on_of_apply first other (ih rest on)

/-- A task that ends has taken its effect off. -/
theorem not_on_of_ended (lifts : e.liftedBy s.task = true) (ended : s.next dt = none) :
    ¬e.On (applyAll (s.changes dt) stage) := by
  obtain ⟨id, task, step, steps, easing⟩ := s
  rw [← Slot.advance_stage]
  unfold Slot.next Slot.advance at ended
  unfold Slot.advance
  cases lifts_of_liftedBy lifts with
  | objectShake name remaining =>
    dsimp only at ended ⊢
    split at ended
    next => contradiction
    next past =>
      rw [if_neg past]
      rintro ⟨o, found, shakes⟩
      rw [Stage.modifyObject, Table.find?_modify, if_pos rfl] at found
      obtain ⟨before, -, rfl⟩ := Option.map_eq_some_iff.mp found
      cases shakes
  | screenShake remaining =>
    dsimp only at ended ⊢
    split at ended
    next => contradiction
    next past =>
      rw [if_neg past]
      exact fun on => on rfl
  | flash color =>
    simp only [Slot.stepped, ite_eq_left_iff, reduceCtorEq, imp_false, not_not] at ended
    dsimp only [Slot.stepped]
    rw [if_pos ended]
    exact fun on => on rfl

/-- After a tick of one task an effect is on only if it was before, and the task is another's,
or if the task is to take it off and goes on. -/
theorem on_advance (on : e.On (applyAll (s.changes dt) stage)) :
    (∃ t, s.next dt = some t ∧ e.liftedBy t.task = true) ∨
      e.liftedBy s.task = false ∧ e.On stage := by
  by_cases lifts : e.liftedBy s.task = true
  · cases next : s.next dt with
    | none => exact absurd on (not_on_of_ended lifts next)
    | some t => exact .inl ⟨t, rfl, (liftedBy_next next).trans lifts⟩
  · have other := (Bool.not_eq_true _).mp lifts
    exact .inr ⟨other, on_of_applyAll (fun _ => id) other on⟩

/-- An effect that is on after a tick has a task that goes on, if it had one before. -/
theorem on_tick {slots : List Slot} (h : e.On stage → ∃ s ∈ slots, e.liftedBy s.task = true)
    (on : e.On (applyAll (slots.flatMap (Slot.changes dt)) stage)) :
    ∃ t ∈ slots.filterMap (Slot.next dt), e.liftedBy t.task = true := by
  induction slots generalizing stage with
  | nil =>
    obtain ⟨s, hs, -⟩ := h on
    exact absurd hs List.not_mem_nil
  | cons s ss ih =>
    rw [List.flatMap_cons, applyAll_append] at on
    rw [filterMap_cons_toList]
    by_cases goes : ∃ t, s.next dt = some t ∧ e.liftedBy t.task = true
    · obtain ⟨t, next, lifts⟩ := goes
      exact ⟨t, List.mem_append_left _ (by rw [next]; exact List.mem_singleton_self t), lifts⟩
    · -- Then the later tasks see the effect only if one of them is to take it off.
      obtain ⟨t, ht, lifts⟩ := ih (fun now => by
        obtain ⟨other, before⟩ := (on_advance now).resolve_left goes
        obtain ⟨u, hu, lifts⟩ := h before
        rcases List.mem_cons.mp hu with rfl | later
        · rw [other] at lifts
          contradiction
        · exact ⟨u, later, lifts⟩) on
      exact ⟨t, List.mem_append_right _ ht, lifts⟩

end Passing

end VisualNovel
