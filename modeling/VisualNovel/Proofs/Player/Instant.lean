import VisualNovel.Proofs.Player.Events

/-!
# Nodes that are applied instantly

A script can be entered in the middle: the nodes before that place are applied instantly, to
have the stage as it would be by then. Nothing of this may be left under way. A node that is
applied instantly brings about an end state and no more; it starts no task, records no line,
asks for no answer, and of all sounds it plays or stops music only. So does a conditional, at
whatever depth, for the nodes of the branch that it picks.

> `Session.Act.applied`: what an act that takes no time leaves as it is.

> `Player.applyInstant_applied`: what applying a node instantly leaves as it is.
-/

namespace VisualNovel

open Relation

namespace Session

variable {setup : Setup} {s t u : Session}

/-- From one session to another only end states are applied: tasks may be dropped but none is
started, the record and the choices stay, and all that is queued or called is about the
background and the music. -/
structure Applied (setup : Setup) (s t : Session) : Prop where
  slots : t.animator.slots.Sublist s.animator.slots
  lastId : t.animator.lastId = s.animator.lastId
  history : t.stage.history = s.stage.history
  choices : t.stage.choices = s.stage.choices
  poolLoaded : t.poolLoaded = s.poolLoaded
  cues : ∃ more, t.cues = s.cues ++ more ∧
    ∀ c ∈ more, ∃ name locator, c = .backgroundChanged name locator
  calls : ∃ more, t.audio.calls = s.audio.calls ++ more ∧ ∀ c ∈ more,
    c = .stop ∨ ∃ name locator, setup.assets .music name = some locator ∧
      c = .play locator setup.sound.musicVolume

namespace Applied

/-- What neither queues nor calls anything, and keeps the rest. -/
theorem of_still (slots : t.animator.slots.Sublist s.animator.slots)
    (lastId : t.animator.lastId = s.animator.lastId)
    (history : t.stage.history = s.stage.history) (choices : t.stage.choices = s.stage.choices)
    (poolLoaded : t.poolLoaded = s.poolLoaded) (cues : t.cues = s.cues)
    (audio : t.audio = s.audio) : Applied setup s t where
  slots := slots
  lastId := lastId
  history := history
  choices := choices
  poolLoaded := poolLoaded
  cues := ⟨[], by rw [cues, List.append_nil], nofun⟩
  calls := ⟨[], by rw [audio, List.append_nil], nofun⟩

/-- What leaves all but the stage and the variables alone. -/
theorem of_stage {stage : Stage} {vars : Variables} (history : stage.history = s.stage.history)
    (choices : stage.choices = s.stage.choices) :
    Applied setup s { s with stage := stage, vars := vars } :=
  .of_still (.refl _) rfl history choices rfl rfl rfl

theorem refl (s : Session) : Applied setup s s := .of_stage rfl rfl

theorem trans (h : Applied setup s t) (h' : Applied setup t u) : Applied setup s u where
  slots := h'.slots.trans h.slots
  lastId := h'.lastId.trans h.lastId
  history := h'.history.trans h.history
  choices := h'.choices.trans h.choices
  poolLoaded := h'.poolLoaded.trans h.poolLoaded
  cues := by
    obtain ⟨more, queued, about⟩ := h.cues
    obtain ⟨more', queued', about'⟩ := h'.cues
    refine ⟨more ++ more', ?_, List.forall_mem_append.mpr ⟨about, about'⟩⟩
    rw [queued', queued, List.append_assoc]
  calls := by
    obtain ⟨more, called, plays⟩ := h.calls
    obtain ⟨more', called', plays'⟩ := h'.calls
    refine ⟨more ++ more', ?_, List.forall_mem_append.mpr ⟨plays, plays'⟩⟩
    rw [called', called, List.append_assoc]

/-- A call for music. -/
theorem call (s : Session) {c : AudioCall} (plays : c = .stop ∨
    ∃ name locator, setup.assets .music name = some locator ∧
      c = .play locator setup.sound.musicVolume) : Applied setup s (s.call c) where
  slots := .refl _
  lastId := rfl
  history := rfl
  choices := rfl
  poolLoaded := rfl
  cues := ⟨[], (List.append_nil _).symm, nofun⟩
  calls := ⟨[c], rfl, List.forall_mem_singleton.mpr plays⟩

end Applied

/-- An act that takes no time applies an end state. -/
theorem Act.applied (h : Act setup true s t) : Applied setup s t := by
  cases h with
  | text => exact .of_stage rfl rfl
  | background name locator =>
    exact
      { (Applied.of_stage rfl rfl :
          Applied setup s { s with stage := s.stage.setBackground name locator }) with
        cues := ⟨[_], rfl, List.forall_mem_singleton.mpr ⟨_, locator, rfl⟩⟩ }
  | put => exact .of_still List.filter_sublist rfl rfl rfl rfl rfl rfl
  | take name =>
    rw [Change.removeObject_eq]
    exact .of_still List.filter_sublist rfl rfl rfl rfl rfl rfl
  | set => exact .of_stage rfl rfl
  | unflash => exact .of_stage rfl rfl
  | music found => exact .call s (.inr ⟨_, _, found, rfl⟩)
  | silence => exact .call s (.inl rfl)
  | assign => exact .of_stage rfl rfl
  -- All other acts take time.
  | record timed | offer timed | notice timed | start timed | shakeObject timed
  | shakeScreen timed | flash timed | sound timed => exact absurd rfl timed

theorem Acts.applied (h : Acts setup true s t) : Applied setup s t := by
  induction h with
  | refl => exact .refl s
  | tail _ act ih => exact ih.trans act.applied

end Session

/-- A node that is applied instantly starts no task: the tasks in progress after it are those
before, in the same order, except some that it drops, and no identity is given out. The player
is at the same place of the same script as before, in the same state, with the same reveal,
record and choices; cues are queued only for the background, and the sink is called only for
music. -/
theorem Player.applyInstant_applied (p : Player) (n : Node) :
    let q := p.applyInstant n
    q.session.animator.slots.Sublist p.session.animator.slots ∧
      q.session.animator.lastId = p.session.animator.lastId ∧
      q.state = p.state ∧ q.frame = p.frame ∧ q.stack = p.stack ∧ q.root = p.root ∧
      (∀ name, labelIndex q.root name = labelIndex p.root name) ∧
      q.reveal = p.reveal ∧ q.session.stage.history = p.session.stage.history ∧
      q.session.stage.choices = p.session.stage.choices ∧
      (∃ more, q.session.cues = p.session.cues ++ more ∧
        ∀ c ∈ more, ∃ name locator, c = .backgroundChanged name locator) ∧
      ∃ more, q.session.audio.calls = p.session.audio.calls ++ more ∧ ∀ c ∈ more,
        c = .stop ∨ ∃ name locator, p.setup.assets .music name = some locator ∧
          c = .play locator p.setup.sound.musicVolume := by
  intro q
  have applied : Session.Applied p.setup p.session q.session :=
    (Session.acts_replay p.setup p.session n).applied
  exact ⟨applied.slots, applied.lastId, rfl, rfl, rfl, rfl, fun _ => rfl, rfl, applied.history,
    applied.choices, applied.cues, applied.calls⟩

end VisualNovel
