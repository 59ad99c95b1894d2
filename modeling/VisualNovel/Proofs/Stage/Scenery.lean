import VisualNovel.Proofs.Stage.Built

/-!
# The scenery

The scenery is what nodes put on stage for longer than a moment: the objects, the name of
the background, and the tasks that still work on them. A tick changes it in a way that the
tasks alone decide, so it can be followed without the rest of the stage.

> `Scenery.tick_eq`: the scenery after a tick of the animator.

> `Scenery.tick_object`, `Scenery.tick_contains`: an object keeps what no task writes, and
> only a fade-out takes it off.

> `Scenery.Settles.tick`: a background under way is either shown by a tick or still under
> way after it.
-/

namespace VisualNovel

open Change

/-! ## Properties of objects -/

/-- The value of one property of an object. -/
inductive Property
  | alpha (value : Single)
  | position (x y : Int32)
  | scale (x y : Single)
  | rotation (angle : Single)
  | tint (color : Option Color)
  deriving DecidableEq

/-- The property that a value is of. -/
def Property.channel : Property → Channel
  | alpha _ => .alpha
  | position .. => .position
  | scale .. => .scale
  | rotation _ => .rotation
  | tint _ => .tint

namespace StageObject

/-- The value of a property. -/
def property (o : StageObject) : Channel → Property
  | .alpha => .alpha o.alpha
  | .position => .position o.x o.y
  | .scale => .scale o.scaleX o.scaleY
  | .rotation => .rotation o.rotation
  | .tint => .tint o.tint

/-- The object with another value of one property. -/
def set (o : StageObject) : Property → StageObject
  | .alpha value => { o with alpha := value }
  | .position x y => { o with x := x, y := y }
  | .scale x y => { o with scaleX := x, scaleY := y }
  | .rotation angle => { o with rotation := angle }
  | .tint color => { o with tint := color }

theorem property_set (o : StageObject) (v : Property) : (o.set v).property v.channel = v := by
  cases v <;> rfl

theorem property_set_of_ne (o : StageObject) {v : Property} {channel : Channel}
    (h : v.channel ≠ channel) : (o.set v).property channel = o.property channel := by
  cases v <;> cases channel <;> first | exact absurd rfl h | rfl

end StageObject

/-- The value of its property that a tween gives at the fraction `t` of its way. -/
def Tween.value (tween : Tween) (t : Single) : Property :=
  match tween with
  | alpha a b => .alpha ((lerp a b t).clamp 0 1)
  | position ax ay bx by' => .position (coordinate ax bx t) (coordinate ay by' t)
  | scale ax ay bx by' => .scale (lerp ax bx t) (lerp ay by' t)
  | rotation a b => .rotation (lerp a b t)
  | tint a b => .tint (some (a.lerp b t))

theorem Tween.channel_value (f : Tween) (t : Single) : (f.value t).channel = f.channel := by
  cases f <;> rfl

theorem Tween.apply_eq (f : Tween) (t : Single) (o : StageObject) :
    f.apply t o = o.set (f.value t) := by
  cases f <;> rfl

/-! ## What a tick of one task writes -/

namespace Change

/-- What a write makes of the objects. -/
def toObjects (objects : Table StageObject) : Change → Table StageObject
  | object name f => objects.modify name f
  | removal name => objects.erase name
  | _ => objects

/-- The name of a background that a write shows. -/
def backdrop? : Change → Option String
  | background name _ => some name
  | _ => none

/-- What a write makes of the name of the background. -/
def toBackgroundName (shown : String) (c : Change) : String := c.backdrop?.getD shown

theorem applyAll_toObjects (cs : List Change) (stage : Stage) :
    (applyAll cs stage).objects = cs.foldl toObjects stage.objects := by
  induction cs generalizing stage with
  | nil => rfl
  | cons c cs ih =>
    refine (ih (apply stage c)).trans ?_
    cases c with
    | removal name =>
      simp only [apply, removeObject_eq]
      rfl
    | _ => rfl

theorem applyAll_toBackgroundName (cs : List Change) (stage : Stage) :
    (applyAll cs stage).backgroundName = cs.foldl toBackgroundName stage.backgroundName := by
  induction cs generalizing stage with
  | nil => rfl
  | cons c cs ih =>
    refine (ih (apply stage c)).trans ?_
    cases c with
    | removal name =>
      simp only [apply, removeObject_eq]
      rfl
    | _ => rfl

/-- The background shown last is the one on stage. -/
theorem foldl_toBackgroundName (cs : List Change) (shown : String) :
    cs.foldl toBackgroundName shown =
      (cs.filterMap backdrop?).foldl (fun _ name => name) shown := by
  rw [List.foldl_filterMap]
  congr 1

variable {cs : List Change} {objects : Table StageObject} {id : String}

/-- An object keeps what every write to it keeps. -/
theorem find?_toObjects {P : StageObject → Prop} (h : ∀ o, objects.find? id = some o → P o)
    (keeps : ∀ f, .object id f ∈ cs → ∀ o, P o → P (f o)) :
    ∀ o, (cs.foldl toObjects objects).find? id = some o → P o := by
  induction cs generalizing objects with
  | nil => exact h
  | cons c cs ih =>
    refine ih ?_ fun f hf => keeps f (List.mem_cons_of_mem c hf)
    cases c with
    | object name f =>
      intro o ho
      rw [toObjects, Table.find?_modify] at ho
      split at ho
      next same =>
        subst same
        obtain ⟨before, found, rfl⟩ := Option.map_eq_some_iff.mp ho
        exact keeps f List.mem_cons_self before (h before found)
      next => exact h o ho
    | removal name =>
      intro o ho
      rw [toObjects, Table.find?_erase] at ho
      split at ho
      next => contradiction
      next => exact h o ho
    | _ => exact h

/-- An object stays unless it is taken off, and none comes. -/
theorem contains_toObjects (h : .removal id ∉ cs) :
    (cs.foldl toObjects objects).contains id = objects.contains id := by
  induction cs generalizing objects with
  | nil => rfl
  | cons c cs ih =>
    refine (ih fun hm => h (List.mem_cons_of_mem c hm)).trans ?_
    cases c with
    | object name f => exact Table.contains_modify _ _ _ f
    | removal name =>
      have other : id ≠ name := fun same => h (same ▸ List.mem_cons_self)
      rw [toObjects, Table.contains_erase, bne_iff_ne.mpr other, Bool.and_true]
    | _ => rfl

end Change

/-- The background that a crossfade is still to show. -/
def Task.awaits? : Task → Option String
  | .crossfade name _ false => some name
  | _ => none

theorem Task.awaits?_of_not_crossfade {task : Task} (h : ¬Animator.isCrossfade task = true) :
    task.awaits? = none := by
  cases task with
  | crossfade => exact absurd rfl h
  | _ => rfl

theorem Task.awaits?_of_part {task : Task} (h : task.part ≠ .background) :
    task.awaits? = none := by
  cases task with
  | crossfade => exact absurd rfl h
  | _ => rfl

namespace Slot

variable {s t : Slot} {dt : Nat} {id : String}

/-- Only a fade-out takes an object off. -/
theorem removal_mem_changes (h : .removal id ∈ s.changes dt) : s.task = .fadeOut id := by
  obtain ⟨i, task, step, steps, easing⟩ := s
  unfold changes at h
  cases task <;>
    simp only [List.mem_append, List.mem_cons, List.mem_ite_nil_left, List.mem_ite_nil_right,
      List.not_mem_nil, reduceCtorEq, and_false, or_false, false_or, removal.injEq] at h
  case fadeOut target => rw [h.2]

/-- What a task writes to an object leaves a property other than the opacity alone, or is
the value of a tween of the property. -/
theorem property_of_mem_changes {f : StageObject → StageObject} (h : .object id f ∈ s.changes dt)
    {channel : Channel} (notAlpha : channel ≠ .alpha) :
    (∀ o, (f o).property channel = o.property channel) ∨
      ∃ u x, s.task = .tween id u ∧ u.channel = channel ∧
        ∀ o, (f o).property channel = u.value x := by
  rcases object_mem_changes h with ⟨u, x, task, rfl⟩ | ⟨x, task, rfl⟩ | ⟨left, task, rfl⟩
  · by_cases same : u.channel = channel
    · refine .inr ⟨u, x, task, same, fun o => ?_⟩
      rw [u.apply_eq, ← same, ← u.channel_value x, o.property_set]
    · refine .inl fun o => ?_
      rw [u.apply_eq, o.property_set_of_ne (by rwa [u.channel_value])]
  · exact .inl fun o => o.property_set_of_ne (v := .alpha x) notAlpha.symm
  · refine .inl fun o => ?_
    cases channel <;> rfl

/-- A tween stays what it is to its end. -/
theorem tween_next (h : s.next dt = some t) {f : Tween} (ht : t.task = .tween id f) :
    s.task = .tween id f := by
  cases goes_of_next h with
  | tween => exact ht
  | _ => contradiction

/-- A fade-out stays what it is to its end. -/
theorem fadeOut_next (h : s.next dt = some t) (ht : t.task = .fadeOut id) :
    s.task = .fadeOut id := by
  cases goes_of_next h with
  | fadeOut => exact ht
  | _ => contradiction

/-- What a task is to show, it shows in this tick or is to show after it. In particular a
crossfade does not end before it has shown its background. -/
theorem awaits_tick (dt : Nat) (s : Slot) :
    s.task.awaits?.toList = (s.changes dt).filterMap backdrop? ++
      ((s.next dt).bind fun t => t.task.awaits?).toList := by
  by_cases crossfade : Animator.isCrossfade s.task = true
  · obtain ⟨i, task, step, steps, easing⟩ := s
    cases task with
    | crossfade name locator swapped =>
      unfold changes next advance
      simp only [stepped_next]
      by_cases swaps : steps / 2 < step + 1 ∧ swapped = false
      · obtain ⟨half, rfl⟩ := swaps
        simp [Task.awaits?, backdrop?, half]
      · cases swapped with
        | true => simp [Task.awaits?, backdrop?]
        | false =>
          -- Before the middle there are steps left.
          have early : ¬steps / 2 < step + 1 := by simpa using swaps
          have left : ¬steps ≤ step + 1 := by omega
          simp [Task.awaits?, backdrop?, early, left]
    | _ => contradiction
  · have shows : (s.changes dt).filterMap backdrop? = [] := by
      rw [List.filterMap_eq_nil_iff]
      intro c hc
      cases c with
      | background name locator => exact absurd (background_mem_changes hc) crossfade
      | _ => rfl
    have further : ((s.next dt).bind fun t => t.task.awaits?) = none := by
      rw [Option.bind_eq_none_iff]
      intro t ht
      rw [← isCrossfade_next ht] at crossfade
      exact Task.awaits?_of_not_crossfade crossfade
    rw [Task.awaits?_of_not_crossfade crossfade, shows, further]
    rfl

/-- What a task is to show, it shows at its end. -/
theorem awaits_ending (s : Slot) : s.task.awaits?.toList = s.ending.filterMap backdrop? := by
  obtain ⟨id, task, step, steps, easing⟩ := s
  unfold ending
  cases task with
  | crossfade name locator swapped => cases swapped <;> rfl
  | _ => rfl

end Slot

/-! ## The backgrounds under way -/

namespace Animator

variable {a : Animator}

/-- The backgrounds that crossfades in progress are still to show. -/
def awaits (a : Animator) : List String := a.slots.filterMap fun s => s.task.awaits?

/-- Without a crossfade no background is under way. -/
theorem awaits_eq_nil (h : ∀ s ∈ a.slots, isCrossfade s.task = false) : a.awaits = [] := by
  refine List.filterMap_eq_nil_iff.mpr fun s hs => Task.awaits?_of_not_crossfade ?_
  simp [h s hs]

theorem awaits_drop {test : Task → Bool} (h : ∀ task, test task → task.awaits? = none) :
    (a.drop test).awaits = a.awaits := by
  unfold awaits drop
  rw [List.filterMap_filter]
  refine List.filterMap_congr fun s _ => ?_
  split
  next => rfl
  next dropped => exact (h s.task (by simpa using dropped)).symm

theorem awaits_push (a : Animator) (task : Task) (steps : Nat) (easing : Easing) :
    (a.push task steps easing).1.awaits = a.awaits ++ task.awaits?.toList := by
  unfold awaits push
  rw [List.filterMap_append, filterMap_cons_toList, List.filterMap_nil, List.append_nil]

theorem awaits_cancel {id : TaskId} (h : ∀ s ∈ a.slots, s.id = id → s.task.awaits? = none) :
    (a.cancel id).awaits = a.awaits := by
  unfold awaits cancel
  rw [List.filterMap_filter]
  refine List.filterMap_congr fun s hs => ?_
  split
  next => rfl
  next dropped => exact (h s hs (by simpa using dropped)).symm

/-- Starting a task that is not about the background takes the place of no crossfade. -/
theorem awaits_start (a : Animator) (task : Task) (other : task.part ≠ .background) (steps : Nat)
    (easing : Easing) : ((a.drop task.contends).push task steps easing).1.awaits = a.awaits := by
  have dropped : (a.drop task.contends).awaits = a.awaits := by
    refine awaits_drop fun old contends => Task.awaits?_of_not_crossfade fun crossfade => ?_
    cases old with
    | crossfade =>
      cases task with
      | crossfade => exact other rfl
      | _ => cases contends
    | _ => cases crossfade
  rw [awaits_push, dropped, Task.awaits?_of_part other]
  exact List.append_nil _

theorem awaits_cancelTarget (a : Animator) (target : String) :
    (a.cancelTarget target).awaits = a.awaits := by
  refine awaits_drop fun task h => Task.awaits?_of_not_crossfade fun crossfade => ?_
  cases task with
  | crossfade => simp [Task.target?] at h
  | _ => cases crossfade

/-- A new crossfade takes the place of all that were under way. -/
theorem awaits_crossfade (a : Animator) (name : String) (locator : Option String)
    (halfSteps : Nat) : (a.crossfade name locator halfSteps).1.awaits = [name] := by
  unfold crossfade
  rw [awaits_push, awaits_eq_nil, List.nil_append]
  · rfl
  · intro s hs
    simpa using (List.mem_filter.mp hs).2

/-- With every task at its end the background under way is shown. -/
theorem finishAll_backgroundName (a : Animator) (stage : Stage) :
    (a.finishAll stage).backgroundName =
      a.awaits.foldl (fun _ name => name) stage.backgroundName := by
  have shows : a.awaits = (a.slots.flatMap Slot.ending).filterMap backdrop? := by
    unfold awaits
    generalize a.slots = ss
    induction ss with
    | nil => rfl
    | cons s ss ih =>
      rw [filterMap_cons_toList, s.awaits_ending, ih, List.flatMap_cons, List.filterMap_append]
  rw [finishAll_eq, applyAll_toBackgroundName, foldl_toBackgroundName, shows]

/-- What is to be shown before a tick is shown by it or still to be shown after it. -/
theorem awaits_perm (dt : Nat) (slots : List Slot) :
    (slots.filterMap fun s => s.task.awaits?).Perm
      ((slots.flatMap (Slot.changes dt)).filterMap backdrop? ++
        (slots.filterMap (Slot.next dt)).filterMap fun s => s.task.awaits?) := by
  induction slots with
  | nil => exact .nil
  | cons s ss ih =>
    have goes : (s.next dt).toList.filterMap (fun t => t.task.awaits?) =
        ((s.next dt).bind fun t => t.task.awaits?).toList := by
      cases s.next dt with
      | none => rfl
      | some t => exact (filterMap_cons_toList _ t []).trans (List.append_nil _)
    rw [filterMap_cons_toList, s.awaits_tick dt, filterMap_cons_toList, List.filterMap_append, goes,
      List.flatMap_cons, List.filterMap_append, List.append_assoc, List.append_assoc]
    -- What the first task is still to show moves past what the others show now.
    refine List.Perm.append_left _ ?_
    refine (ih.append_left _).trans ?_
    rw [← List.append_assoc, ← List.append_assoc]
    exact List.Perm.append_right _ List.perm_append_comm

end Animator

/-! ## The scenery -/

/-- What nodes put on stage for longer than a moment, with the tasks that work on it. -/
structure Scenery where
  objects : Table StageObject
  backgroundName : String
  animator : Animator

/-- The scenery of a stage with the tasks in progress. -/
def Stage.scenery (stage : Stage) (a : Animator) : Scenery :=
  ⟨stage.objects, stage.backgroundName, a⟩

namespace Scenery

variable {c : Scenery} {dt : Nat} {id name : String}

/-- One tick of `dt` milliseconds. -/
def tick (dt : Nat) (c : Scenery) : Scenery :=
  let writes := c.animator.slots.flatMap (Slot.changes dt)
  { objects := writes.foldl toObjects c.objects
    backgroundName := writes.foldl toBackgroundName c.backgroundName
    animator := { c.animator with slots := c.animator.slots.filterMap (Slot.next dt) } }

/-- A tick of the animator is one of the scenery. -/
theorem tick_eq (dt : Nat) (stage : Stage) (a : Animator) :
    (a.tick dt stage).2.1.scenery (a.tick dt stage).1 = (stage.scenery a).tick dt := by
  unfold Stage.scenery tick
  dsimp only
  rw [Animator.tick_stage, applyAll_toObjects, applyAll_toBackgroundName]
  congr 1
  rw [← Animator.tick_slots a dt stage]
  rfl

/-- After a tick, every task is what is left of one before. -/
theorem forall_tick {P : Slot → Prop} (h : ∀ s ∈ c.animator.slots, ∀ t, s.next dt = some t → P t) :
    ∀ t ∈ (c.tick dt).animator.slots, P t := by
  intro t ht
  obtain ⟨s, hs, next⟩ := List.mem_filterMap.mp ht
  exact h s hs t next

/-- An object keeps what no task changes. -/
theorem tick_object {P : StageObject → Prop} (h : ∀ o, c.objects.find? id = some o → P o)
    (keeps : ∀ s ∈ c.animator.slots, ∀ f, .object id f ∈ s.changes dt → ∀ o, P o → P (f o)) :
    ∀ o, (c.tick dt).objects.find? id = some o → P o := by
  refine find?_toObjects h fun f hf => ?_
  obtain ⟨s, hs, hf⟩ := List.mem_flatMap.mp hf
  exact keeps s hs f hf

/-- An object that is not fading out stays, and none comes. -/
theorem tick_contains (h : ∀ s ∈ c.animator.slots, s.task ≠ .fadeOut id) :
    (c.tick dt).objects.contains id = c.objects.contains id := by
  refine contains_toObjects fun hm => ?_
  obtain ⟨s, hs, hm⟩ := List.mem_flatMap.mp hm
  exact h s hs (Slot.removal_mem_changes hm)

/-- The background of this name is shown, and no other is under way. -/
structure Rests (c : Scenery) (name : String) : Prop where
  awaits : c.animator.awaits = []
  shown : c.backgroundName = name

/-- The background of this name is shown with no other under way, or it is under way. -/
def Settles (c : Scenery) (name : String) : Prop := c.Rests name ∨ c.animator.awaits = [name]

theorem Rests.tick (h : c.Rests name) (dt : Nat) : (c.tick dt).Rests name := by
  have perm := Animator.awaits_perm dt c.animator.slots
  rw [show c.animator.slots.filterMap _ = [] from h.awaits, List.nil_perm,
    List.append_eq_nil_iff] at perm
  refine ⟨perm.2, (foldl_toBackgroundName _ _).trans ?_⟩
  rw [perm.1]
  exact h.shown

/-- A background under way is shown by a tick or still under way after it. -/
theorem Settles.tick (h : c.Settles name) (dt : Nat) : (c.tick dt).Settles name := by
  rcases h with rests | under
  · exact .inl (rests.tick dt)
  · have perm := Animator.awaits_perm dt c.animator.slots
    rw [show c.animator.slots.filterMap _ = [name] from under, List.singleton_perm,
      eq_comm, List.append_eq_singleton_iff] at perm
    rcases perm with ⟨-, later⟩ | ⟨now, ended⟩
    · exact .inr later
    · refine .inl ⟨ended, (foldl_toBackgroundName _ _).trans ?_⟩
      rw [now]
      rfl

/-- Once no crossfade is in progress, the background is there. -/
theorem Settles.shown (h : c.Settles name)
    (ended : ∀ s ∈ c.animator.slots, Animator.isCrossfade s.task = false) :
    c.backgroundName = name := by
  rw [Settles, Animator.awaits_eq_nil ended] at h
  exact (h.resolve_right (by simp)).shown

end Scenery

end VisualNovel
