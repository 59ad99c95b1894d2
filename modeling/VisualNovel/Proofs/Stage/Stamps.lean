import Mathlib.Logic.Relation
import VisualNovel.Proofs.Stage.Writes

/-!
# The revision is a stamp

Whoever draws the stage may keep the pictures of the objects and ask for the revision alone:
while it is the same, the pictures are. For this nothing may come, go or be replaced under the
same revision, and no revision may come back. An object that is put on stage and an object that
is taken off raise it; so does clearing the stage, even an empty one. Every other write to an
object leaves alone what its picture depends on.

Revisions are counted without an upper bound. That one fits the word it is saved in is a matter of
saving (`Stage.Storable`).

> `Stage.Stamped`: a later stage with the same revision has the same sprites.

> `Slot.sprite_of_mem_changes`: what tasks write to an object leaves its sprite.

> `Animator.stamped_tick`: a tick of all tasks raises the revision if it changes the sprites.
-/

namespace VisualNovel

open Change Relation

/-- What the picture of an object depends on. Where the object stands, and how it is turned,
scaled, tinted or shaken, is a matter of drawing it. -/
structure Sprite where
  name : String
  kind : ObjectKind
  asset : Option String
  visible : Bool
  deriving DecidableEq, Repr

/-- The sprite of an object. -/
def StageObject.sprite (o : StageObject) : Sprite := ⟨o.name, o.kind, o.asset, o.visible⟩

namespace Stage

variable {s t u : Stage}

/-- The sprites on stage, each with the key of its object. -/
def sprites (s : Stage) : List (String × Sprite) :=
  s.objects.entries.map fun e => (e.1, e.2.sprite)

/-- The sprites are listed in the order of the objects. -/
theorem keys_eq_sprites (s : Stage) : s.objects.keys = s.sprites.map Prod.fst := by
  unfold Table.keys sprites
  rw [List.map_map]
  rfl

/-- The sprite of an object is found under its key. -/
theorem map_sprite_find? (s : Stage) (key : String) :
    (s.objects.find? key).map StageObject.sprite =
      (s.sprites.find? fun e => e.1 == key).map Prod.snd := by
  unfold Table.find? sprites
  rw [List.find?_map, Option.map_map, Option.map_map]
  rfl

/-- A change of an object that leaves its sprite leaves the sprites on stage. -/
theorem sprites_modifyObject (s : Stage) (name : String) {f : StageObject → StageObject}
    (keeps : ∀ o, (f o).sprite = o.sprite) : (s.modifyObject name f).sprites = s.sprites := by
  simp only [sprites, modifyObject, Table.modify, Table.mapValues, List.map_map]
  refine List.map_congr_left fun e _ => ?_
  dsimp only [Function.comp]
  split
  next => rw [keeps]
  next => rfl

/-- From one stage to a later one the revision does not fall, and it rises if the sprites are
not the same. -/
structure Stamped (s t : Stage) : Prop where
  le : s.revision ≤ t.revision
  same : t.revision = s.revision → t.sprites = s.sprites

namespace Stamped

/-- What leaves revision and objects. -/
theorem of_still (revision : t.revision = s.revision) (objects : t.objects = s.objects) :
    s.Stamped t where
  le := Nat.le_of_eq revision.symm
  same := fun _ => by rw [sprites, sprites, objects]

/-- Whatever becomes of the objects, a new revision tells. -/
theorem of_lt (h : s.revision < t.revision) : s.Stamped t where
  le := Nat.le_of_lt h
  same := fun equal => absurd equal.symm (Nat.ne_of_lt h)

theorem refl (s : Stage) : s.Stamped s := .of_still rfl rfl

/-- Between two stages with one revision there is none with another. -/
theorem trans (h : s.Stamped t) (h' : t.Stamped u) : s.Stamped u where
  le := Nat.le_trans h.le h'.le
  same := by
    intro equal
    -- In between the revision cannot have been another one.
    have between : t.revision = s.revision :=
      Nat.le_antisymm (equal ▸ h'.le) h.le
    exact (h'.same (equal.trans between.symm)).trans (h.same between)

/-- What holds of every step holds of a chain of steps, whatever has the stages. -/
theorem along {α : Type} (stage : α → Stage) {r : α → α → Prop}
    (step : ∀ a b, r a b → (stage a).Stamped (stage b)) {a b : α} (h : ReflTransGen r a b) :
    (stage a).Stamped (stage b) := by
  induction h with
  | refl => exact .refl _
  | tail _ next ih => exact ih.trans (step _ _ next)

end Stamped

/-- Putting an object on stage raises the revision, also in place of the same one. -/
theorem stamped_insertObject (s : Stage) (o : StageObject) : s.Stamped (s.insertObject o) :=
  .of_lt (Nat.lt_succ_self _)

/-- So does clearing, also of an empty stage. -/
theorem stamped_clearPresentation (s : Stage) : s.Stamped s.clearPresentation :=
  .of_lt (Nat.lt_succ_self _)

/-- Taking off what is not on stage changes nothing. -/
theorem stamped_removeObject (s : Stage) (name : String) : s.Stamped (s.removeObject name) := by
  unfold removeObject
  split
  next => exact .of_lt (Nat.lt_succ_self _)
  next => exact .refl s

/-- Writing to an object leaves the revision, and must leave the sprite. -/
theorem stamped_modifyObject (s : Stage) (name : String) {f : StageObject → StageObject}
    (keeps : ∀ o, (f o).sprite = o.sprite) : s.Stamped (s.modifyObject name f) where
  le := Nat.le_refl _
  same := fun _ => s.sprites_modifyObject name keeps

end Stage

/-! ## Tasks -/

/-- A tween changes where an object is and how it is drawn, not its picture. -/
theorem Tween.sprite_apply (f : Tween) (t : Single) (o : StageObject) :
    (f.apply t o).sprite = o.sprite := by
  cases f <;> rfl

/-- What a tick of a task writes to an object leaves its sprite. -/
theorem Slot.sprite_of_mem_changes {dt : Nat} {s : Slot} {name : String}
    {f : StageObject → StageObject} (h : .object name f ∈ s.changes dt) (o : StageObject) :
    (f o).sprite = o.sprite := by
  rcases object_mem_changes h with ⟨tween, t, -, rfl⟩ | ⟨alpha, -, rfl⟩ | ⟨remaining, -, rfl⟩
  · exact tween.sprite_apply t o
  · rfl
  · rfl

namespace Change

variable {stage : Stage}

/-- A write stamps the stage, provided that writes to objects leave their sprites. -/
theorem stamped_apply (c : Change)
    (keeps : ∀ name f, c = .object name f → ∀ o, (f o).sprite = o.sprite) :
    stage.Stamped (apply stage c) := by
  cases c with
  | object name f => exact stage.stamped_modifyObject name (keeps name f rfl)
  | removal name => exact stage.stamped_removeObject name
  | _ => exact .of_still rfl rfl

/-- So do writes in order. -/
theorem stamped_applyAll (cs : List Change)
    (keeps : ∀ name f, .object name f ∈ cs → ∀ o, (f o).sprite = o.sprite) :
    stage.Stamped (applyAll cs stage) := by
  induction cs generalizing stage with
  | nil => exact .refl stage
  | cons c cs ih =>
    have first : stage.Stamped (apply stage c) :=
      stamped_apply c fun name f same => keeps name f (same ▸ List.mem_cons_self)
    have others : (apply stage c).Stamped (applyAll cs (apply stage c)) :=
      ih fun name f later => keeps name f (List.mem_cons_of_mem c later)
    exact first.trans others

end Change

/-- A tick of all tasks stamps the stage. -/
theorem Animator.stamped_tick (a : Animator) (dt : Nat) (stage : Stage) :
    stage.Stamped (a.tick dt stage).2.1 := by
  rw [tick_stage]
  refine stamped_applyAll _ fun name f member => ?_
  obtain ⟨s, -, member⟩ := List.mem_flatMap.mp member
  exact Slot.sprite_of_mem_changes member

end VisualNovel
