import VisualNovel.Stage.Basic

/-!
# Changes of the stage

Whatever a task does to the stage is a list of writes, each to one part of it. The order
of two matters only if they go to the same part, and on objects only if both change
one that stays.

> `Change.comm_of_part`, `Change.comm_of_objects`: writes that can be made in either order.

> `Change.leaveSame_comm`: lists of writes that trade places, as far as what they leave
> behind lasts.
-/

namespace VisualNovel

namespace Table

variable {α : Type} (t : Table α)

/-- Two changes of one value are one. -/
theorem modify_modify (key : String) (f g : α → α) :
    (t.modify key f).modify key g = t.modify key (g ∘ f) := by
  apply ext
  simp only [modify, mapValues, List.map_map, Function.comp_def]
  congr 1
  funext e
  split
  next => rfl
  next => rfl

/-- Changes of values trade places, at one key if they commute. -/
theorem modify_comm {a b : String} (f g : α → α) (h : a = b → g ∘ f = f ∘ g) :
    (t.modify a f).modify b g = (t.modify b g).modify a f := by
  by_cases same : a = b
  · subst same
    rw [modify_modify, modify_modify, h rfl]
  · apply ext
    simp only [modify, mapValues, List.map_map, Function.comp_def]
    congr 1
    funext e
    by_cases ha : e.1 = a
    · have hb : e.1 ≠ b := fun hb => same (ha.symm.trans hb)
      rw [if_pos ha, if_neg hb, if_neg hb, if_pos ha]
    · rw [if_neg ha, if_neg ha]

/-- What is taken out need not have been changed, in whatever order. -/
theorem erase_modify (a b : String) (f : α → α) :
    (t.modify a f).erase b = (t.erase b).modify a f := by
  apply ext
  simp only [modify, mapValues, erase, List.filter_map]
  rfl

/-- A value that is removed may as well not have been changed. -/
theorem erase_modify_same (key : String) (f : α → α) :
    (t.modify key f).erase key = t.erase key := by
  rw [erase_modify]
  apply ext
  simp only [modify, mapValues, erase]
  rw [List.map_congr_left (g := id), List.map_id]
  intro e he
  have other : e.1 ≠ key := by simpa using (List.mem_filter.mp he).2
  rw [if_neg other]
  rfl

/-- Keys are removed in either order. -/
theorem erase_comm (a b : String) : (t.erase a).erase b = (t.erase b).erase a := by
  apply ext
  simp only [erase, List.filter_filter]
  congr 1
  funext e
  exact Bool.and_comm _ _

theorem contains_modify (a b : String) (f : α → α) :
    (t.modify a f).contains b = t.contains b := by
  rw [contains_eq_isSome, contains_eq_isSome, find?_modify]
  split
  next => exact Option.isSome_map
  next => rfl

/-- A removed key has no value, and every other one as before. -/
theorem contains_erase (a b : String) :
    (t.erase a).contains b = (t.contains b && b != a) := by
  rw [contains_eq_isSome, contains_eq_isSome, find?_erase]
  split
  next h => simp [h]
  next h => simp [h]

/-- An added key has a value, and every other one as before. -/
theorem contains_insert (a b : String) (value : α) :
    (t.insert a value).contains b = (b == a || t.contains b) := by
  rw [contains_eq_isSome, contains_eq_isSome, find?_insert]
  split
  next h => simp [h]
  next h => simp [h]

end Table

/-- One write to the stage. -/
inductive Change
  | object (name : String) (f : StageObject → StageObject)
  | removal (name : String)
  | background (name : String) (locator : Option String)
  | overlay (color : Color)
  | shake (amount : Single)
  | cover (alpha : Single)
  | message (text : String)

namespace Change

/-- Makes a write. -/
def apply (stage : Stage) : Change → Stage
  | object name f => stage.modifyObject name f
  | removal name => stage.removeObject name
  | background name locator => stage.setBackground name locator
  | overlay color => { stage with overlay := color }
  | shake amount => { stage with screenShake := amount }
  | cover alpha => { stage with transitionAlpha := alpha }
  | message text => { stage with message := text }

/-- Makes writes in order. -/
def applyAll (cs : List Change) (stage : Stage) : Stage := cs.foldl apply stage

/-- Writes are made one list after the other. -/
theorem applyAll_append (cs ds : List Change) (stage : Stage) :
    applyAll (cs ++ ds) stage = applyAll ds (applyAll cs stage) := List.foldl_append ..

/-! ## The order of writes -/

/-- The parts of the stage that writes go to. -/
inductive Part
  | objects
  | background
  | overlay
  | shake
  | cover
  | message
  deriving DecidableEq, Repr

/-- The part a write goes to. -/
def part : Change → Part
  | object .. | removal _ => .objects
  | background .. => .background
  | overlay _ => .overlay
  | shake _ => .shake
  | cover _ => .cover
  | message _ => .message

/-- Two writes can be made in either order. -/
def Comm (c d : Change) : Prop := ∀ stage, apply (apply stage c) d = apply (apply stage d) c

variable {c d : Change}

theorem Comm.symm (h : Comm c d) : Comm d c := fun stage => (h stage).symm

/-- Taking an object off, without asking first whether it is there. -/
theorem removeObject_eq (stage : Stage) (name : String) :
    stage.removeObject name =
      { stage with
        objects := stage.objects.erase name
        revision := stage.revision + (stage.objects.contains name).toNat } := by
  unfold Stage.removeObject
  by_cases h : stage.objects.contains name = true
  · rw [if_pos h, h]
    rfl
  · have same : stage.objects.erase name = stage.objects := by
      apply Table.ext
      refine List.filter_eq_self.mpr fun e he => ?_
      simp only [Table.contains, Bool.not_eq_true, List.any_eq_false] at h
      simpa using h e he
    rw [if_neg h, same, (Bool.not_eq_true _).mp h]
    rfl

/-- Writes to different parts of the stage trade places. -/
theorem comm_of_part (h : c.part ≠ d.part) : Comm c d := by
  intro stage
  cases c <;> cases d <;>
    first
    | exact absurd rfl h
    | simp only [apply, removeObject_eq, Stage.modifyObject, Stage.setBackground]

/-- Changes of objects trade places, those of one object if they commute. -/
theorem comm_object_object {a b : String} {f g : StageObject → StageObject}
    (h : a = b → g ∘ f = f ∘ g) : Comm (object a f) (object b g) := by
  intro stage
  simp only [apply, Stage.modifyObject, Table.modify_comm _ f g h]

/-- A change of an object and a removal trade places, also if it is the same object. -/
theorem comm_object_removal (a b : String) (f : StageObject → StageObject) :
    Comm (object a f) (removal b) := by
  intro stage
  simp only [apply, removeObject_eq, Stage.modifyObject, Table.erase_modify,
    Table.contains_modify]

/-- Removals trade places, also of one object: the revision rises with the first of them only. -/
theorem comm_removal_removal (a b : String) : Comm (removal a) (removal b) := by
  intro stage
  by_cases same : a = b
  · rw [same]
  · have other : b ≠ a := fun h => same h.symm
    simp only [apply, removeObject_eq, Table.erase_comm _ a b, Table.contains_erase]
    rw [bne_iff_ne.mpr same, bne_iff_ne.mpr other, Bool.and_true, Bool.and_true,
      Nat.add_right_comm]

/-- Of the writes to objects, only two changes of objects that stay need a closer look. -/
theorem comm_of_objects (hc : c.part = .objects) (hd : d.part = .objects)
    (h : ∀ a f b g, c = .object a f → d = .object b g → Comm (.object a f) (.object b g)) :
    Comm c d := by
  cases c with
  | object a f =>
    cases d with
    | object b g => exact h a f b g rfl rfl
    | removal b => exact comm_object_removal a b f
    | _ => contradiction
  | removal a =>
    cases d with
    | object b g => exact (comm_object_removal b a g).symm
    | removal b => exact comm_removal_removal a b
    | _ => contradiction
  | _ => contradiction

/-! ## What lasts -/

end Change

/-- A stage without what is only shown for the moment: the opacity of the cover, and how
much of the message is revealed. -/
def Stage.lasting (stage : Stage) : Stage := { stage with transitionAlpha := 0, message := "" }

namespace Change

/-- Whether a write goes to what lasts. -/
def lasts : Change → Bool
  | cover _ | message _ => false
  | _ => true

/-- What lasts of the stage after a write is told by what lasted before. -/
theorem lasting_apply (stage : Stage) (c : Change) :
    (apply stage c).lasting = if c.lasts then apply stage.lasting c else stage.lasting := by
  cases c <;> simp only [apply, removeObject_eq, lasts] <;> rfl

/-- A write does the same to stages that are the same as far as it lasts. -/
theorem apply_congr {s t : Stage} (h : s.lasting = t.lasting) (c : Change) :
    (apply s c).lasting = (apply t c).lasting := by
  rw [lasting_apply, lasting_apply, h]

/-- So do writes in order. -/
theorem applyAll_congr {s t : Stage} (h : s.lasting = t.lasting) (cs : List Change) :
    (applyAll cs s).lasting = (applyAll cs t).lasting := by
  induction cs generalizing s t with
  | nil => exact h
  | cons c cs ih => exact ih (apply_congr h c)

/-- Two lists of writes leave the same behind, as far as it lasts. -/
def LeaveSame (cs ds : List Change) : Prop :=
  ∀ stage, (applyAll cs stage).lasting = (applyAll ds stage).lasting

variable {as bs cs ds : List Change}

theorem LeaveSame.refl (cs : List Change) : LeaveSame cs cs := fun _ => rfl

theorem LeaveSame.symm (h : LeaveSame as bs) : LeaveSame bs as := fun stage => (h stage).symm

theorem LeaveSame.trans (h : LeaveSame as bs) (h' : LeaveSame bs cs) : LeaveSame as cs :=
  fun stage => (h stage).trans (h' stage)

/-- Lists that leave the same behind may be put together. -/
theorem leaveSame_append (h : LeaveSame as bs) (h' : LeaveSame cs ds) :
    LeaveSame (as ++ cs) (bs ++ ds) := by
  intro stage
  rw [applyAll_append, applyAll_append]
  exact (applyAll_congr (h stage) cs).trans (h' _)

/-- Writes to what does not last can be left out. -/
theorem leaveSame_filter (cs : List Change) : LeaveSame (cs.filter lasts) cs := by
  induction cs with
  | nil => exact .refl []
  | cons c cs ih =>
    intro stage
    by_cases h : c.lasts = true
    · rw [List.filter_cons_of_pos h]
      exact ih (apply stage c)
    · rw [List.filter_cons_of_neg h]
      refine (ih stage).trans (applyAll_congr ?_ cs)
      rw [lasting_apply, if_neg h]

/-- Writes that do not last may be left out. -/
theorem leaveSame_of_filter (h : cs.filter lasts = ds.filter lasts) : LeaveSame cs ds := by
  have left := (leaveSame_filter cs).symm
  rw [h] at left
  exact left.trans (leaveSame_filter ds)

/-- Two writes trade places if they can be made in either order, or one does not last. -/
theorem leaveSame_swap (h : c.lasts → d.lasts → Comm c d) : LeaveSame [c, d] [d, c] := by
  intro stage
  by_cases hc : c.lasts = true
  · by_cases hd : d.lasts = true
    · exact congrArg Stage.lasting (h hc hd stage)
    · simp only [applyAll, List.foldl_cons, List.foldl_nil, lasting_apply, hd]
      rfl
  · simp only [applyAll, List.foldl_cons, List.foldl_nil, lasting_apply, hc]
    rfl

/-- Two lists of writes trade places if each write of one does with each of the other. -/
theorem leaveSame_comm (h : ∀ c ∈ cs, ∀ d ∈ ds, c.lasts → d.lasts → Comm c d) :
    LeaveSame (cs ++ ds) (ds ++ cs) := by
  have past (c : Change) (ds : List Change)
      (h : ∀ d ∈ ds, c.lasts → d.lasts → Comm c d) : LeaveSame (c :: ds) (ds ++ [c]) := by
    induction ds with
    | nil => exact .refl _
    | cons d ds ih =>
      have first : LeaveSame ([c, d] ++ ds) ([d, c] ++ ds) :=
        leaveSame_append (leaveSame_swap (h d List.mem_cons_self)) (.refl ds)
      have rest : LeaveSame ([d] ++ (c :: ds)) ([d] ++ (ds ++ [c])) :=
        leaveSame_append (.refl [d]) (ih fun e he => h e (List.mem_cons_of_mem d he))
      exact first.trans rest
  induction cs with
  | nil =>
    rw [List.append_nil]
    exact .refl ds
  | cons c cs ih =>
    have rest : LeaveSame ([c] ++ (cs ++ ds)) ([c] ++ (ds ++ cs)) :=
      leaveSame_append (.refl [c]) (ih fun e he => h e (List.mem_cons_of_mem c he))
    have first : LeaveSame ((c :: ds) ++ cs) ((ds ++ [c]) ++ cs) :=
      leaveSame_append (past c ds (h c List.mem_cons_self)) (.refl cs)
    rw [List.append_assoc, List.singleton_append] at first
    exact rest.trans first

end Change

end VisualNovel
