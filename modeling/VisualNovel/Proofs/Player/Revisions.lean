import VisualNovel.Proofs.Player.Events
import VisualNovel.Proofs.Stage.Stamps

/-!
# Revisions of a session

Objects come on stage and go by nodes, by tasks that run out in the middle of a line, by the end
of the script and when a session is disposed of. A renderer sees none of this; it looks at the
stage from time to time, and keeps its pictures as long as the revision is the one it saw last.
So it has to hold of any two moments of a session, however much happened between them.

`Later` leads from one moment of a session to another, by calls of a host and by the moves that a
call is made of. Nothing is asked of the player at the first moment: what raises the revision does
so on any stage, be it one that a script began with or one that was restored.

> `Session.Act.stamped`: what a node does raises the revision if it changes the sprites.

> `Move.stamped`, `Entry.stamped`: so does every move, and every call.

> `revision_sound`: the revision never falls, and while it stays the objects are the same.
-/

namespace VisualNovel

open Relation

/-! ## Nodes -/

namespace Session

variable {setup : Setup} {instant : Bool} {s t : Session}

/-- What a node does raises the revision if it changes the sprites. -/
theorem Act.stamped (h : Act setup instant s t) : s.stage.Stamped t.stage := by
  cases h with
  | put o => exact s.stage.stamped_insertObject o
  | take name => exact s.stage.stamped_removeObject name
  | set name v => exact s.stage.stamped_modifyObject name fun o => by cases v <;> rfl
  | shakeObject _ name => exact s.stage.stamped_modifyObject name fun _ => rfl
  | _ => exact .of_still rfl rfl

/-- So do acts one after the other. -/
theorem Acts.stamped (h : Acts setup instant s t) : s.stage.Stamped t.stage :=
  .along Session.stage (fun _ _ => Act.stamped) h

end Session

namespace Player

variable {p q : Player}

/-! ## Moves -/

/-- A node that is presented stamps the stage, and the wait that follows leaves it. -/
theorem stamped_dispatch (p : Player) (n : Node) :
    p.session.stage.Stamped (p.dispatch n).1.session.stage := by
  have presented : p.session.stage.Stamped (p.presented n).session.stage :=
    (Session.acts_present p.setup false n p.session).stamped
  have suspended (state : PlayerState) :
      p.session.stage.Stamped ((p.presented n).suspend state).session.stage := by
    obtain ⟨-, stage, -⟩ := (p.presented n).suspend_cases state
    rwa [stage]
  rw [dispatch_eq]
  cases (p.session.present p.setup false n).next with
  | proceed => exact presented
  | waitClick => exact suspended _
  | waitChoice => exact suspended _
  | delay ms => exact presented

/-- Clearing the stage at the end raises the revision. -/
theorem stamped_finishClose (p : Player) :
    p.session.stage.Stamped p.finishClose.session.stage :=
  p.session.stage.stamped_clearPresentation

/-- The end of the script leaves the stage as it is, or clears it. -/
theorem stamped_beginClose (p : Player) : p.session.stage.Stamped p.beginClose.session.stage := by
  rw [beginClose_eq, ← p.drawn_stage]
  split
  next => exact .refl _
  next => exact p.drawn.stamped_finishClose

/-- A round stamps the stage, also the last one. -/
theorem stamped_step (p : Player) : p.session.stage.Stamped p.step.1.session.stage := by
  cases presenting : p.frame.presenting with
  | some n =>
    rw [p.step_of_presenting presenting]
    exact p.stamped_dispatch n
  | none =>
    rcases step_of_presenting_none presenting with ⟨same, -⟩ | closing
    · rw [same]
      exact .refl _
    · rw [closing]
      exact p.stamped_beginClose

/-- A tick of the tasks stamps the stage: fades that end take their objects off. -/
theorem stamped_animate (p : Player) : p.session.stage.Stamped p.animate.session.stage := by
  obtain ⟨session, hp, stage, -⟩ := p.animate_eq
  rw [hp, stage]
  exact Animator.stamped_tick ..

/-- Of the ticks of the end only the one that clears the stage touches the objects. -/
theorem stamped_closeTick (p : Player) : p.session.stage.Stamped p.closeTick.session.stage := by
  unfold closeTick
  split
  next =>
    split
    next => exact .refl _
    next =>
      let covered := p.withStage { p.session.stage with transitionAlpha := 1 }
      have cover : p.session.stage.Stamped covered.session.stage := .of_still rfl rfl
      exact cover.trans covered.stamped_finishClose
  next =>
    split
    next => exact .refl _
    next => exact .refl _
  next => exact .refl _

/-- An answer touches no object. -/
theorem stamped_chosen (p : Player) (target : String) :
    p.session.stage.Stamped (p.chosen target).session.stage := by
  unfold Player.chosen
  dsimp only
  split
  next => exact .of_still rfl rfl
  next => exact .of_still rfl rfl

/-- A move raises the revision if it changes the sprites. -/
theorem Move.stamped (h : Move p q) : p.session.stage.Stamped q.session.stage := by
  cases h with
  | round => exact p.stamped_step
  | countDown =>
    rw [countDown_session]
    exact .refl _
  | animate => exact p.stamped_animate
  | closeTick => exact p.stamped_closeTick
  | completeReveal => exact .of_still rfl rfl
  | left => exact .refl _
  | chosen target => exact p.stamped_chosen target
  | takeCues => exact .refl _

/-- So do moves one after the other. -/
theorem Moves.stamped (h : Moves p q) : p.session.stage.Stamped q.session.stage :=
  .along (·.session.stage) (fun _ _ => Move.stamped) h

/-! ## Calls -/

/-- Whoever disposes of a session clears its stage. -/
theorem stamped_dispose (p : Player) : p.session.stage.Stamped p.dispose.session.stage := by
  obtain ⟨audio, loaded, released⟩ :=
    ((p.withAnimator p.session.animator.cancelAll).call .stop).releasePool_eq
  unfold dispose
  rw [released]
  have cleared := p.session.stage.stamped_clearPresentation
  exact cleared.trans (.of_still rfl rfl)

/-- Every call stamps the stage, be it the one that disposes of the session. -/
theorem Entry.stamped (h : Entry p q) : p.session.stage.Stamped q.session.stage := by
  rcases h.plays_or with ⟨ns, plays⟩ | rfl
  · exact plays.moves.stamped
  · exact p.stamped_dispose

/-! ## Any two moments -/

/-- From one moment of a session to a later one: by calls of a host, and by the moves that lead
into the middle of a call or out of it. Neither a start nor a restoring is among them. -/
abbrev Later : Player → Player → Prop := ReflTransGen fun p q => Entry p q ∨ Move p q

/-- Step by step, the revision rises if the sprites change. -/
theorem Later.stamped (h : Later p q) : p.session.stage.Stamped q.session.stage := by
  refine .along (·.session.stage) (fun p q next => ?_) h
  rcases next with entry | move
  · exact entry.stamped
  · exact move.stamped

/-- Of any two moments of a session the later one has no smaller revision. If it has the same
one, the same keys have objects on stage, and the object of each has the name, the kind, the
picture and the visibility that it had. -/
theorem revision_sound (h : Later p q) :
    p.session.stage.revision ≤ q.session.stage.revision ∧
      (q.session.stage.revision = p.session.stage.revision →
        q.session.stage.objects.keys = p.session.stage.objects.keys ∧
          ∀ key o o', p.session.stage.objects.find? key = some o →
            q.session.stage.objects.find? key = some o' →
              o'.name = o.name ∧ o'.kind = o.kind ∧ o'.asset = o.asset ∧
                o'.visible = o.visible) := by
  obtain ⟨le, same⟩ := h.stamped
  refine ⟨le, fun equal => ?_⟩
  have sprites := same equal
  refine ⟨?_, fun key o o' before after => ?_⟩
  · rw [Stage.keys_eq_sprites, Stage.keys_eq_sprites, sprites]
  · have sprite : some o'.sprite = some o.sprite := by
      rw [← Option.map_some, ← Option.map_some, ← before, ← after,
        Stage.map_sprite_find?, Stage.map_sprite_find?, sprites]
    obtain ⟨name, kind, asset, visible⟩ := Sprite.mk.inj (Option.some.inj sprite)
    exact ⟨name, kind, asset, visible⟩

/-- Two pictures, one of which glides while the other fades out, behind a line. -/
def drifting : Block :=
  [.directive "@image_in" ["lamp"], .directive "@image_in" ["moth"],
    .directive "@move" ["lamp", "100", "0", "320"], .directive "@image_out" ["moth", "160"],
    .dialogue "" "night"]

/-- While the moth fades the revision stays, and with it both pictures, however far the lamp has
moved. Once the moth is gone and the session disposed of, the revision is another one. -/
theorem revision_sound_drifting :
    let begun := (new ⟨.any, {}, {}⟩ .accepting).start drifting 0
    let fading := begun.tick.tick
    let gone := (tick^[10] begun).dispose
    Later begun fading ∧ Later begun gone ∧
      fading.session.stage.revision = begun.session.stage.revision ∧
      (fading.session.stage.objects.find? "lamp").map (·.x) ≠
        (begun.session.stage.objects.find? "lamp").map (·.x) ∧
      fading.session.stage.objects.keys = begun.session.stage.objects.keys ∧
      (∀ o o', begun.session.stage.objects.find? "lamp" = some o →
        fading.session.stage.objects.find? "lamp" = some o' → o'.asset = o.asset) ∧
      gone.session.stage.objects.keys ≠ begun.session.stage.objects.keys ∧
      begun.session.stage.revision < gone.session.stage.revision := by
  intro begun fading gone
  have twoTicks : Later begun fading := .tail (.single (.inl .tick)) (.inl .tick)
  have tenTicks : Later begun (tick^[10] begun) :=
    ReflTransGen.mono (fun _ _ => .inr) _ _ (moves_of_calls (calls_tick 10 begun))
  have disposed : Later begun gone := tenTicks.tail (.inl .dispose)
  have stays : fading.session.stage.revision = begun.session.stage.revision := by decide +kernel
  obtain ⟨-, unchanged⟩ := revision_sound twoTicks
  obtain ⟨keys, pictures⟩ := unchanged stays
  obtain ⟨le, unchanged⟩ := revision_sound disposed
  have emptied : gone.session.stage.objects.keys ≠ begun.session.stage.objects.keys := by
    decide +kernel
  have rises : begun.session.stage.revision < gone.session.stage.revision :=
    Nat.lt_of_le_of_ne le fun equal => emptied (unchanged equal.symm).1
  refine ⟨twoTicks, disposed, stays, by decide +kernel, keys, fun o o' before after => ?_,
    emptied, rises⟩
  exact (pictures "lamp" o o' before after).2.2.1

end Player

end VisualNovel
