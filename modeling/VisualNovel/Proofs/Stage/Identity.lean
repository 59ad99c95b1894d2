import VisualNovel.Proofs.Stage.Built

/-!
# Identities of tasks

Every task is started under a new identity, and keeps it. So an identity that was given to
a task of one part of the screen is never that of a task of another part, however many
tasks have come and gone since.

> `Animator.Grows.tags`: an identity stays with the part it was given to.
-/

namespace VisualNovel

open Change

/-- A task is about the same part of the screen all along its course. -/
theorem Slot.part_next {s t : Slot} {dt : Nat} (h : s.next dt = some t) :
    t.task.part = s.task.part := by
  cases goes_of_next h <;> rfl

namespace Animator

variable {a b c : Animator}

/-- Tasks come with new identities only. -/
structure Grows (a b : Animator) : Prop where
  le : a.lastId ≤ b.lastId
  slots : ∀ s ∈ b.slots, (∃ t ∈ a.slots, t.id = s.id ∧ t.task.part = s.task.part) ∨
    a.lastId < s.id ∧ s.id ≤ b.lastId

/-- Leaving out tasks brings no new ones. -/
theorem Grows.of_sublist (slots : b.slots.Sublist a.slots) (lastId : b.lastId = a.lastId) :
    a.Grows b where
  le := lastId.ge
  slots := fun s hs => .inl ⟨s, slots.mem hs, rfl, rfl⟩

theorem Grows.refl (a : Animator) : a.Grows a := .of_sublist (List.Sublist.refl _) rfl

/-- What is new over two steps is new in the first or in the second. -/
theorem Grows.trans (h : a.Grows b) (h' : b.Grows c) : a.Grows c := by
  refine ⟨h.le.trans h'.le, fun s hs => ?_⟩
  rcases h'.slots s hs with ⟨t, ht, id, part⟩ | ⟨new, issued⟩
  · rcases h.slots t ht with ⟨u, hu, id', part'⟩ | ⟨new, issued⟩
    · exact .inl ⟨u, hu, id'.trans id, part'.trans part⟩
    · exact .inr ⟨id ▸ new, id ▸ issued.trans h'.le⟩
  · exact .inr ⟨Nat.lt_of_le_of_lt h.le new, issued⟩

/-- Dropping tasks leaves them out. -/
theorem Grows.drop (a : Animator) (test : Task → Bool) : a.Grows (a.drop test) :=
  .of_sublist List.filter_sublist rfl

/-- So does cancelling those of an object. -/
theorem Grows.cancelTarget (a : Animator) (target : String) : a.Grows (a.cancelTarget target) :=
  Grows.drop a _

/-- So does cancelling a single one. -/
theorem Grows.cancel (a : Animator) (id : TaskId) : a.Grows (a.cancel id) :=
  .of_sublist List.filter_sublist rfl

/-- A task is started under the next identity. -/
theorem Grows.push (a : Animator) (task : Task) (steps : Nat) (easing : Easing) :
    a.Grows (a.push task steps easing).1 := by
  refine ⟨Nat.le_succ _, fun s hs => ?_⟩
  rcases List.mem_append.mp hs with old | new
  · exact .inl ⟨s, old, rfl, rfl⟩
  · cases List.mem_singleton.mp new
    exact .inr ⟨Nat.lt_succ_self _, Nat.le_refl _⟩

/-- Starting a task in the place of others. -/
theorem Grows.start (a : Animator) (test : Task → Bool) (task : Task) (steps : Nat)
    (easing : Easing) : a.Grows ((a.drop test).push task steps easing).1 :=
  (Grows.drop a test).trans (Grows.push _ task steps easing)

/-- What goes on after a tick. -/
theorem Grows.next (a : Animator) (dt : Nat) :
    a.Grows { a with slots := a.slots.filterMap (Slot.next dt) } := by
  refine ⟨Nat.le_refl _, fun t ht => ?_⟩
  obtain ⟨s, hs, next⟩ := List.mem_filterMap.mp ht
  exact .inl ⟨s, hs, (Slot.next_id next).symm, (Slot.part_next next).symm⟩

/-- All tasks in progress have identities that were given out. -/
def Issued (a : Animator) : Prop := ∀ s ∈ a.slots, s.id ≤ a.lastId

/-- If all tasks had identities that were given out, so have those with the new ones. -/
theorem Grows.issued (h : a.Grows b) (issued : a.Issued) : b.Issued := by
  intro s hs
  rcases h.slots s hs with ⟨t, ht, id, -⟩ | ⟨-, le⟩
  · exact id ▸ (issued t ht).trans h.le
  · exact le

/-- The identity was given to a task of this part of the screen. -/
structure Tags (a : Animator) (part : Part) (id : TaskId) : Prop where
  le : id ≤ a.lastId
  part : ∀ s ∈ a.slots, s.id = id → s.task.part = part

/-- An identity stays with the part it was given to. -/
theorem Grows.tags {part : Part} {id : TaskId} (h : a.Grows b) (tags : a.Tags part id) :
    b.Tags part id := by
  refine ⟨tags.le.trans h.le, fun s hs same => ?_⟩
  rcases h.slots s hs with ⟨t, ht, id', part'⟩ | ⟨new, -⟩
  · rw [← part']
    exact tags.part t ht (id'.trans same)
  · rw [same] at new
    exact absurd tags.le (Nat.not_le.mpr new)

/-- A task that is started is given the identity it is started under. -/
theorem Issued.tags_push (h : a.Issued) (task : Task) (steps : Nat) (easing : Easing) :
    (a.push task steps easing).1.Tags task.part (a.push task steps easing).2 := by
  refine ⟨Nat.le_refl _, fun s hs same => ?_⟩
  rcases List.mem_append.mp hs with old | new
  · have issued := h s old
    rw [same] at issued
    exact absurd issued (Nat.not_succ_le_self a.lastId)
  · cases List.mem_singleton.mp new
    rfl

end Animator

end VisualNovel
