import VisualNovel.Proofs.Stage.Built

/-!
# Reveals

A reveal is the one kind of task that writes the message, and only parts of its own text.
So as long as the text of every reveal in progress is the whole line, the message is a
beginning of the line. Other tasks come and go without a reveal being started or dropped.

> `Animator.reveals_start`, `Animator.reveals_cancelTarget`: the reveals in progress are a
> matter of reveals.

> `Animator.reveals_tick`: a tick takes each of them on, and starts none.

> `Animator.tick_message_isPrefix`, `Animator.finishAll_message_isPrefix`: the message is a
> beginning of the line after a tick, and when everything is at its end.
-/

namespace VisualNovel

open Change

/-- The line that a task reveals. -/
def Task.line? : Task → Option (List Char)
  | .reveal text .. => some text
  | _ => none

/-- Reveals are the tasks that are about the message. -/
theorem Task.isReveal_iff {task : Task} : Animator.isReveal task = true ↔ task.part = .message := by
  cases task <;> simp [Animator.isReveal, Task.part]

/-- The message after writes is the old one, or one that was written. -/
theorem Change.applyAll_message {P : String → Prop} {cs : List Change} {stage : Stage}
    (h : P stage.message) (hw : ∀ x, .message x ∈ cs → P x) : P (applyAll cs stage).message := by
  induction cs generalizing stage with
  | nil => exact h
  | cons c cs ih =>
    refine ih ?_ fun x hx => hw x (List.mem_cons_of_mem c hx)
    cases c with
    | message x => exact hw x List.mem_cons_self
    | removal name => simp only [apply, removeObject_eq]; exact h
    | _ => exact h

namespace Slot

variable {s t : Slot} {dt : Nat}

theorem isReveal_next (h : s.next dt = some t) :
    Animator.isReveal t.task = Animator.isReveal s.task :=
  (contends_next h (.reveal [] 0 0 0 0)).2

/-- A reveal keeps its line to the end. -/
theorem line?_next (h : s.next dt = some t) : t.task.line? = s.task.line? := by
  cases goes_of_next h <;> rfl

/-- A tick writes a beginning of the line that is revealed. -/
theorem message_mem_changes {x : String} (h : .message x ∈ s.changes dt) :
    ∃ line, s.task.line? = some line ∧ x.toList <+: line := by
  obtain ⟨id, task, step, steps, easing⟩ := s
  unfold changes at h
  cases task <;>
    simp only [List.mem_append, List.mem_cons, List.mem_ite_nil_left, List.mem_ite_nil_right,
      List.not_mem_nil, reduceCtorEq, and_false, or_false, message.injEq] at h
  case reveal text total shown interval elapsed =>
    refine ⟨text, rfl, ?_⟩
    rw [h.2, String.toList_ofList]
    exact Markup.revealed_isPrefix ..

/-- The end of a reveal writes the line. -/
theorem message_mem_ending {x : String} (h : .message x ∈ s.ending) :
    s.task.line? = some x.toList := by
  obtain ⟨id, task, step, steps, easing⟩ := s
  unfold ending at h
  cases task <;>
    simp only [List.mem_append, List.mem_singleton, List.mem_ite_nil_left, reduceCtorEq,
      and_false, or_false, message.injEq] at h
  case reveal text total shown interval elapsed =>
    rw [h, String.toList_ofList]
    rfl

/-- Only a reveal has a line. -/
theorem isReveal_of_line? {line : List Char} (h : s.task.line? = some line) :
    Animator.isReveal s.task = true := by
  cases task : s.task with
  | reveal => rfl
  | _ =>
    rw [task] at h
    contradiction

end Slot

namespace Animator

variable {a : Animator}

/-- The reveals in progress. -/
def reveals (a : Animator) : List Slot := a.slots.filter fun s => isReveal s.task

/-- A task that is started comes last among the reveals, if it is one. -/
theorem reveals_push (a : Animator) (task : Task) (steps : Nat) (easing : Easing) :
    (a.push task steps easing).1.reveals = a.reveals ++
      [⟨a.lastId + 1, task, 0, max steps 1, easing⟩].filter fun s => isReveal s.task :=
  List.filter_append ..

/-- Dropping other tasks drops no reveal. -/
theorem reveals_drop {test : Task → Bool}
    (h : ∀ task, test task = true → ¬isReveal task = true) :
    (a.drop test).reveals = a.reveals := by
  unfold reveals drop
  dsimp only
  rw [List.filter_filter]
  congr 1
  funext s
  cases kind : isReveal s.task with
  | false => rfl
  | true =>
    have kept : test s.task = false := by
      rw [← Bool.not_eq_true]
      exact fun dropped => h s.task dropped kind
    rw [kept]
    rfl

/-- Starting another task neither starts nor drops a reveal. -/
theorem reveals_start (a : Animator) (task : Task) (other : task.part ≠ .message) (steps : Nat)
    (easing : Easing) : ((a.drop task.contends).push task steps easing).1.reveals = a.reveals := by
  have dropped : (a.drop task.contends).reveals = a.reveals := by
    refine reveals_drop fun old contends reveal => ?_
    cases old with
    | reveal =>
      cases task with
      | reveal => exact other rfl
      | _ => cases contends
    | _ => cases reveal
  have silent : ¬isReveal task = true := fun reveal => other (Task.isReveal_iff.mp reveal)
  rw [reveals_push, dropped]
  simp [silent]

theorem reveals_cancelTarget (a : Animator) (target : String) :
    (a.cancelTarget target).reveals = a.reveals := by
  refine reveals_drop fun task h reveal => ?_
  cases task with
  | reveal => simp [Task.target?] at h
  | _ => cases reveal

/-- Dropping the reveals drops all of them. -/
theorem reveals_drop_isReveal (a : Animator) : (a.drop isReveal).reveals = [] := by
  refine List.filter_eq_nil_iff.mpr fun s hs => ?_
  simpa using (List.mem_filter.mp hs).2

/-- A new reveal takes the place of any other. -/
theorem reveals_reveal (a : Animator) (text : String) (interval : Nat) :
    ∃ s : Slot, (a.reveal text interval).1.reveals = [s] ∧
      s.id = (a.reveal text interval).2 ∧ s.task.line? = some text.toList := by
  unfold reveal
  rw [reveals_push, reveals_drop_isReveal, List.nil_append]
  exact ⟨_, rfl, rfl, rfl⟩

/-- Cancelling one task cancels one reveal at most. -/
theorem reveals_cancel (a : Animator) (id : TaskId) :
    (a.cancel id).reveals = a.reveals.filter (·.id != id) := by
  unfold reveals cancel
  exact List.filter_comm ..

/-- A reveal in progress is running. -/
theorem isRunning_of_mem_reveals {s : Slot} (h : s ∈ a.reveals) : a.isRunning s.id = true :=
  List.any_eq_true.mpr ⟨s, (List.mem_filter.mp h).1, beq_self_eq_true _⟩

theorem reveals_tick (a : Animator) (dt : Nat) (stage : Stage) :
    (a.tick dt stage).1.reveals = a.reveals.filterMap (Slot.next dt) := by
  unfold reveals
  rw [tick_slots, List.filter_filterMap, List.filterMap_filter]
  refine List.filterMap_congr fun s _ => ?_
  cases next : s.next dt with
  | none => simp
  | some t =>
    rw [Option.filter_some, Slot.isReveal_next next]

/-- Where every reveal is of one line, no other line is revealed. -/
theorem line_eq {line text : List Char} (reveals : ∀ s ∈ a.reveals, s.task.line? = some line)
    {s : Slot} (hs : s ∈ a.slots) (reveal : s.task.line? = some text) : text = line := by
  have member : s ∈ a.reveals := List.mem_filter.mpr ⟨hs, Slot.isReveal_of_line? reveal⟩
  exact Option.some.inj (reveal.symm.trans (reveals s member))

/-- Where every reveal is of the line, a tick shows a beginning of it. -/
theorem tick_message_isPrefix {line : List Char} {dt : Nat} {stage : Stage}
    (shown : stage.message.toList <+: line)
    (reveals : ∀ s ∈ a.reveals, s.task.line? = some line) :
    (a.tick dt stage).2.1.message.toList <+: line := by
  rw [tick_stage]
  refine applyAll_message (P := (·.toList <+: line)) shown fun x hx => ?_
  obtain ⟨s, hs, written⟩ := List.mem_flatMap.mp hx
  obtain ⟨text, reveal, isPrefix⟩ := Slot.message_mem_changes written
  obtain rfl := line_eq reveals hs reveal
  exact isPrefix

/-- At the end of all tasks the message is still a beginning of the line they reveal. -/
theorem finishAll_message_isPrefix {line : List Char} {stage : Stage}
    (shown : stage.message.toList <+: line)
    (reveals : ∀ s ∈ a.reveals, s.task.line? = some line) :
    (a.finishAll stage).message.toList <+: line := by
  rw [finishAll_eq]
  refine applyAll_message (P := (·.toList <+: line)) shown fun x hx => ?_
  obtain ⟨s, hs, written⟩ := List.mem_flatMap.mp hx
  obtain rfl := line_eq reveals hs (Slot.message_mem_ending written)
  exact List.prefix_refl _

end Animator

end VisualNovel
