import VisualNovel.Proofs.Stage.Built
import VisualNovel.Proofs.Stage.Opacity
import VisualNovel.Proofs.Player.Narration

/-!
# The cover while a story plays

A black cover lies over the stage until the opening fade has taken it away, and while a
background changes. Apart from the opening fade only crossfades write its opacity, nodes
never do, and so it stays at most one as long as the story plays.

> `Session.Covered.present`, `Session.Covered.replayAll`: nodes keep this, presented or
> applied instantly.

> `Session.Covered.tick`: and so does a tick of the tasks.
-/

namespace VisualNovel

open Change

/-! ## Writes to the cover and the background -/

namespace Change

variable {cs : List Change}

/-- The opacity of the cover after writes is the old one, or one that was written. -/
theorem applyAll_transitionAlpha {P : Single → Prop} {stage : Stage}
    (h : P stage.transitionAlpha) (hw : ∀ x, .cover x ∈ cs → P x) :
    P (applyAll cs stage).transitionAlpha := by
  induction cs generalizing stage with
  | nil => exact h
  | cons c cs ih =>
    refine ih ?_ fun x hx => hw x (List.mem_cons_of_mem c hx)
    cases c with
    | cover x => exact hw x List.mem_cons_self
    | removal name => simp only [apply, removeObject_eq]; exact h
    | _ => exact h

/-- Writes of which none goes to the background leave it. -/
theorem applyAll_background {stage : Stage}
    (h : ∀ name locator, .background name locator ∉ cs) :
    (applyAll cs stage).background = stage.background := by
  induction cs generalizing stage with
  | nil => rfl
  | cons c cs ih =>
    refine (ih fun name locator hm => h name locator (List.mem_cons_of_mem c hm)).trans ?_
    cases c with
    | background name locator => exact absurd List.mem_cons_self (h name locator)
    | removal name => simp only [apply, removeObject_eq]
    | _ => rfl

/-- No write puts an object on stage. -/
theorem applyAll_objects_empty {stage : Stage} (h : stage.objects = .empty) :
    (applyAll cs stage).objects = .empty := by
  induction cs generalizing stage with
  | nil => exact h
  | cons c cs ih =>
    refine ih ?_
    cases c with
    | object name f => simp only [apply, Stage.modifyObject, h]; rfl
    | removal name => simp only [apply, removeObject_eq, h]; rfl
    | _ => exact h

end Change

/-! ## Tasks -/

namespace Slot

variable {s t : Slot} {dt : Nat} {opening : Option TaskId}

/-- What a task may do to the cover while a story plays: the opening fade, and no other,
takes it off; a crossfade puts it on for half of its steps. -/
def Covering (opening : Option TaskId) (s : Slot) : Prop :=
  match s.task with
  | .transition start finish =>
    opening = some s.id ∧ Fp.AtMostOne start ∧ finish = 0 ∧ s.easing = .linear ∧
      s.step < s.steps ∧ Fp.IsCount s.steps
  | .crossfade .. => ∃ half, Fp.IsCount half ∧ s.steps = 2 * half ∧ s.step < s.steps
  | _ => True

/-- A task that goes on does to the cover what it did. -/
theorem Covering.next (h : s.Covering opening) (hn : s.next dt = some t) :
    t.Covering opening := by
  cases goes_of_next hn with
  | transition left =>
    obtain ⟨fade, top, off, linear, -, count⟩ := h
    exact ⟨fade, top, off, linear, left, count⟩
  | crossfade left =>
    obtain ⟨half, count, twice, -⟩ := h
    exact ⟨half, count, twice, left⟩
  | _ => trivial

/-- To a task that is no fade of the cover it makes no difference which is the opening one. -/
theorem Covering.reopen (h : s.Covering opening) (other : Animator.isTransition s.task = false)
    (opening' : Option TaskId) : s.Covering opening' := by
  obtain ⟨id, task, step, steps, easing⟩ := s
  cases task with
  | transition start finish => contradiction
  | _ => exact h

/-- Only the screen-wide fades write the opacity of the cover. -/
theorem cover_mem_changes {x : Single} (h : .cover x ∈ s.changes dt) :
    Animator.isTransition s.task ∨ Animator.isCrossfade s.task := by
  obtain ⟨id, task, step, steps, easing⟩ := s
  unfold changes at h
  cases task with
  | transition => exact .inl rfl
  | crossfade => exact .inr rfl
  | tween | fadeOut | flash | objectShake | screenShake | reveal =>
    simp only [List.mem_cons, List.mem_ite_nil_left, List.mem_ite_nil_right, List.not_mem_nil,
      reduceCtorEq, and_false, or_false] at h

/-- What a task writes to the cover while a story plays is at most one. -/
theorem Covering.atMostOne (h : s.Covering opening) {x : Single} (hx : .cover x ∈ s.changes dt) :
    Fp.AtMostOne x := by
  obtain ⟨id, task, step, steps, easing⟩ := s
  unfold changes at hx
  cases task with
  | transition start finish =>
    obtain ⟨-, top, rfl, rfl, left, count⟩ := h
    cases List.mem_singleton.mp hx
    obtain ⟨small, positive⟩ := Fp.fraction_atMostOne left count
    exact top.lerp_zero small positive
  | crossfade name locator swapped =>
    obtain ⟨half, count, twice, left⟩ := h
    dsimp only at twice left
    subst twice
    simp only [List.mem_append, List.mem_ite_nil_right, List.mem_cons, List.not_mem_nil,
      reduceCtorEq, and_false, or_false, false_or, cover.injEq] at hx
    rw [hx]
    split
    next => exact Fp.atMostOne_zero
    next =>
      rw [Nat.mul_div_cancel_left half Nat.two_pos]
      exact coverAlpha_atMostOne count left
  | _ =>
    simp only [List.mem_cons, List.mem_ite_nil_left, List.mem_ite_nil_right, List.not_mem_nil,
      reduceCtorEq, and_false, or_false] at hx

end Slot

/-! ## Nodes -/

/-- The number of steps in a duration is a count, if the duration fits in a word. -/
theorem stepCount_isCount {ms : Nat} (h : ms ≤ twoPow 32) (tick : Nat) :
    Fp.IsCount (stepCount ms tick) := .of_word ((Nat.div_le_self ms _).trans h)

/-- A duration in a script fits in a word. -/
theorem TimeSpec.parse_ms_lt (text : String) : (TimeSpec.parse text).ms < twoPow 32 := by
  have clamped (i : Int) : clampDuration i < twoPow 32 := by
    have word : twoPow 32 = 4294967296 := by decide
    unfold clampDuration Fp.clampInt Text.maxWord32
    split
    next => omega
    next => split <;> omega
  unfold TimeSpec.parse
  split
  next => exact clamped _
  next => exact twoPow_pos 32

theorem TimeSpec.parse_ms_le (text : String) : (TimeSpec.parse text).ms ≤ twoPow 32 :=
  (parse_ms_lt text).le

namespace Animator

variable {a : Animator} {opening : Option TaskId}

/-- A task that leaves the cover alone, or treats it as it should, may be started. -/
theorem covering_start (h : ∀ s ∈ a.slots, s.Covering opening) (test : Task → Bool)
    {task : Task} {steps : Nat} {easing : Easing}
    (new : Slot.Covering opening ⟨a.lastId + 1, task, 0, max steps 1, easing⟩) :
    ∀ s ∈ ((a.drop test).push task steps easing).1.slots, s.Covering opening :=
  forall_start (fun s hs _ => h s hs) new

theorem covering_drop (h : ∀ s ∈ a.slots, s.Covering opening) (test : Task → Bool) :
    ∀ s ∈ (a.drop test).slots, s.Covering opening :=
  fun s hs => h s (List.mem_filter.mp hs).1

end Animator

namespace Session

variable {s : Session} {opening : Option TaskId} (setup : Setup) (instant : Bool) (n : Node)

/-- The cover while a story plays: no more than full, now and later. -/
structure Covered (opening : Option TaskId) (s : Session) : Prop where
  atMostOne : Fp.AtMostOne s.stage.transitionAlpha
  slots : ∀ t ∈ s.animator.slots, t.Covering opening

/-- A line is revealed beside the cover. -/
theorem Covered.text (h : s.Covered opening) :
    (presentText setup instant n s).session.Covered opening := by
  unfold presentText
  dsimp only
  split
  next => exact ⟨h.atMostOne, h.slots⟩
  next => exact ⟨h.atMostOne, Animator.covering_start h.slots _ trivial⟩

/-- A new crossfade covers and uncovers the stage in the same number of steps. -/
theorem Covered.background (h : s.Covered opening) (name time : String) :
    (presentBackground setup instant name time s).Covered opening := by
  unfold presentBackground
  dsimp only
  split
  next => exact h
  next =>
    split
    next => exact h
    next locator _ =>
      split
      next =>
        have half : (TimeSpec.parse time).ms / 2 ≤ twoPow 32 := by
          have := TimeSpec.parse_ms_le time
          omega
        have count := stepCount_isCount half setup.player.tickMs
        refine ⟨h.atMostOne, Animator.covering_start h.slots _ ⟨_, count, ?_, ?_⟩⟩
        · show max (2 * max (setup.steps _) 1) 1 = 2 * stepCount _ _
          have := count.pos
          unfold Setup.steps
          omega
        · show 0 < max _ 1
          omega
      next => exact ⟨h.atMostOne, h.slots⟩

/-- Showing an object drops its tasks and may start one that fades it in. -/
theorem Covered.show (h : s.Covered opening) : (presentShow setup instant n s).Covered opening := by
  unfold presentShow
  dsimp only
  split
  next => exact h
  next =>
    have kept := Animator.covering_drop h.slots fun task => task.target? == some (n.param 0)
    split
    next => exact ⟨h.atMostOne, Animator.covering_start kept _ trivial⟩
    next => exact ⟨h.atMostOne, kept⟩

/-- Hiding an object drops its tasks or starts one that fades it out. -/
theorem Covered.hide (h : s.Covered opening) : (presentHide setup instant n s).Covered opening := by
  unfold presentHide
  dsimp only
  split
  next => exact ⟨h.atMostOne, Animator.covering_start h.slots _ trivial⟩
  next =>
    refine ⟨?_, Animator.covering_drop h.slots _⟩
    simp only [removeObject_eq]
    exact h.atMostOne

/-- A change of a property starts a task on an object at most. -/
theorem Covered.change (h : s.Covered opening) (id : String) (time : TimeSpec)
    (tween : StageObject → Tween) (set : StageObject → StageObject) :
    (presentChange setup instant id time tween set s).Covered opening := by
  unfold presentChange
  split
  next => exact h
  next =>
    split
    next => exact ⟨h.atMostOne, Animator.covering_start h.slots _ trivial⟩
    next => exact ⟨h.atMostOne, h.slots⟩

theorem Covered.tint (h : s.Covered opening) : (presentTint setup instant n s).Covered opening := by
  unfold presentTint
  split
  next => exact h.change ..
  next => exact ⟨h.atMostOne, h.slots⟩

/-- Shaking an object starts a task on the object only. -/
theorem Covered.objectShake (h : s.Covered opening) :
    (presentObjectShake instant n s).Covered opening := by
  unfold presentObjectShake
  dsimp only
  split
  next => exact ⟨h.atMostOne, Animator.covering_start h.slots _ trivial⟩
  next => exact h

/-- Shaking the screen starts a task beside the cover. -/
theorem Covered.screenShake (h : s.Covered opening) :
    (presentScreenShake instant n s).Covered opening := by
  unfold presentScreenShake
  dsimp only
  split
  next => exact ⟨h.atMostOne, Animator.covering_start h.slots _ trivial⟩
  next => exact h

/-- A flash is an overlay and lies beside the cover. -/
theorem Covered.flash (h : s.Covered opening) :
    (presentFlash setup instant n s).Covered opening := by
  unfold presentFlash
  dsimp only
  split
  next => exact ⟨h.atMostOne, Animator.covering_start h.slots _ trivial⟩
  next => exact ⟨h.atMostOne, h.slots⟩

theorem Covered.sound (h : s.Covered opening) (kind : AssetKind) (name : String) (volume : Nat) :
    (playSound setup kind name volume s).Covered opening := by
  unfold playSound
  split
  next => exact ⟨h.atMostOne, h.slots⟩
  next => exact h

theorem Covered.choice (h : s.Covered opening) :
    (presentChoice instant n s).session.Covered opening := by
  unfold presentChoice
  split
  next => exact h
  next => exact ⟨h.atMostOne, h.slots⟩

/-- A node starts no task that puts on more than a full cover. -/
theorem Covered.present (h : s.Covered opening) :
    (present setup instant n s).session.Covered opening := by
  unfold Session.present
  cases n.kind with
  | text => exact h.text setup instant n
  | backgroundSet => exact h.background setup instant _ _
  | characterShow => exact h.show setup instant n
  | imageShow => exact h.show setup instant n
  | characterHide => exact h.hide setup instant n
  | imageHide => exact h.hide setup instant n
  | move => exact h.change ..
  | scale => exact h.change ..
  | rotate => exact h.change ..
  | tint => exact h.tint setup instant n
  | objectShake => exact h.objectShake instant n
  | screenShake => exact h.screenShake instant n
  | screenFlash => exact h.flash setup instant n
  | musicPlay => exact h.sound ..
  | soundEffect =>
    dsimp only
    split
    next => exact h
    next => exact h.sound ..
  | musicStop => exact ⟨h.atMostOne, h.slots⟩
  | wait =>
    dsimp only
    rw [presentWait_session]
    exact h
  | waitForClick =>
    dsimp only
    rw [presentWait_session]
    exact h
  | choicePrompt => exact h.choice instant n
  | variableSet => exact ⟨h.atMostOne, h.slots⟩
  | _ => exact h

mutual

/-- A node that is applied instantly keeps the cover, a conditional with the branch it picks. -/
theorem Covered.replay (setup : Setup) {s : Session} (h : s.Covered opening) (n : Node) :
    (replay setup s n).Covered opening := by
  match n with
  | ⟨_, _, kind, _, _, _, _, _, _, thenBranch, elseBranch⟩ =>
    unfold Session.replay
    split
    next =>
      split
      next => exact Covered.replayAll setup h thenBranch
      next => exact Covered.replayAll setup h elseBranch
    next => exact h.present setup true _

/-- So does a block that is applied instantly. -/
theorem Covered.replayAll (setup : Setup) {s : Session} (h : s.Covered opening) (b : Block) :
    (replayAll setup s b).Covered opening := by
  match b with
  | [] =>
    unfold Session.replayAll
    exact h
  | n :: ns =>
    unfold Session.replayAll
    exact Covered.replayAll setup (Covered.replay setup h n) ns

end

/-! ## Ticks -/

/-- A tick of the tasks keeps the cover as it should be. -/
theorem Covered.tick (h : s.Covered opening) (dt : Nat) :
    Fp.AtMostOne (s.animator.tick dt s.stage).2.1.transitionAlpha ∧
      ∀ t ∈ (s.animator.tick dt s.stage).1.slots, t.Covering opening := by
  constructor
  · rw [Animator.tick_stage]
    refine applyAll_transitionAlpha h.atMostOne fun x hx => ?_
    obtain ⟨t, ht, hx⟩ := List.mem_flatMap.mp hx
    exact (h.slots t ht).atMostOne hx
  · exact Animator.forall_tick fun u hu t next => (h.slots u hu).next next

end Session

end VisualNovel
