import VisualNovel.Proofs.Player.Attempts
import VisualNovel.Proofs.Player.Curtain
import VisualNovel.Proofs.Player.Staging

/-!
# What a session stages

Whatever a session plays is a staging of the nodes it presents: between them it ticks the
tasks, drops those of the reveal and of the opening fade, starts screen-wide fades, and at
its end clears the stage. That it never drops a task of an object or of the background by
the identity of another is what `Tagged` is for.

> `Plays.performs`: the plays of a session are stagings.

> `opened_staging`: so is what is applied before its loop begins.

> `Begun`: the players that sessions begin with.
-/

namespace VisualNovel

namespace Session

variable {setup : Setup} {n : Node} {s : Session}

/-- Only a line of dialogue is revealed. -/
theorem present_reveal_eq_none (h : n.kind ≠ .text) : (present setup false n s).reveal = none := by
  unfold present
  cases kind : n.kind with
  | text => exact absurd kind h
  | choicePrompt =>
    unfold presentChoice
    dsimp only
    split
    next => rfl
    next => rfl
  | wait | waitForClick =>
    unfold presentWait
    dsimp only
    grind
  | _ => rfl

/-- The identity of a reveal is given to it. -/
theorem present_reveal {id : TaskId} (issued : s.animator.Issued)
    (h : (present setup false n s).reveal = some id) :
    (present setup false n s).session.animator.Tags .message id := by
  by_cases kind : n.kind = .text
  · unfold present at h ⊢
    rw [kind] at h ⊢
    unfold presentText at h ⊢
    cases h
    exact ((Animator.Grows.drop _ _).issued issued).tags_push (.reveal ..) _ _
  · rw [present_reveal_eq_none kind] at h
    contradiction

end Session

namespace Player

variable {p q r : Player} {ns ms : List Node} {cleared : Prop}

/-- The scenery of a player. -/
def scenery (p : Player) : Scenery := p.session.scenery

/-- The stage was cleared at the end of the session. -/
def Struck (p : Player) : Prop :=
  (∃ n, p.state = .closing ∧ p.closing = some (.grace n)) ∨ p.state = .terminated

/-- The identities that a player keeps are those of a reveal and of a fade of the cover. -/
structure Tagged (p : Player) : Prop where
  issued : p.session.animator.Issued
  reveal : ∀ id, p.reveal = some id → p.session.animator.Tags .message id
  fadeIn : ∀ id, p.fadeIn = some id → p.session.animator.Tags .cover id

/-- A player comes to be another by a staging of these nodes. -/
structure Performs (cleared : Prop) (p : Player) (ns : List Node) (q : Player) : Prop where
  setup : q.setup = p.setup
  staging : Staging p.setup false cleared p.scenery ns q.scenery
  tagged : q.Tagged

namespace Performs

/-- A staging of a player that keeps its identities or has them given anew. -/
theorem of (h : p.Tagged) (setup : q.setup = p.setup)
    (staging : Staging p.setup false cleared p.scenery ns q.scenery)
    (reveal : ∀ id, q.reveal = some id →
      p.reveal = some id ∨ q.session.animator.Tags .message id)
    (fadeIn : ∀ id, q.fadeIn = some id →
      p.fadeIn = some id ∨ q.session.animator.Tags .cover id) : Performs cleared p ns q where
  setup := setup
  staging := staging
  tagged := by
    have grows : p.session.animator.Grows q.session.animator := staging.grows
    refine ⟨grows.issued h.issued, fun id hid => ?_, fun id hid => ?_⟩
    · exact (reveal id hid).elim (fun old => grows.tags (h.reveal id old)) fun new => new
    · exact (fadeIn id hid).elim (fun old => grows.tags (h.fadeIn id old)) fun new => new

/-- What leaves the scenery and the identities alone stages nothing. -/
theorem still (h : p.Tagged) (setup : q.setup = p.setup) (scenery : q.scenery = p.scenery)
    (reveal : q.reveal = p.reveal) (fadeIn : q.fadeIn = p.fadeIn) : Performs cleared p [] q :=
  .of h setup (scenery ▸ .refl) (fun _ => reveal ▸ .inl) fun _ => fadeIn ▸ .inl

/-- Two performances one after the other are one, with the nodes of both. -/
theorem trans (h : Performs cleared p ns q) (h' : Performs cleared q ms r) :
    Performs cleared p (ns ++ ms) r where
  setup := h'.setup.trans h.setup
  staging := by
    have after := h'.staging
    rw [h.setup] at after
    exact h.staging.trans after
  tagged := h'.tagged

theorem mono {cleared' : Prop} (h : Performs cleared p ns q) (weaker : cleared → cleared') :
    Performs cleared' p ns q := ⟨h.setup, h.staging.mono weaker, h.tagged⟩

end Performs

/-! ## One round -/

/-- A wait stages no node: all that begins with it is a fade of the cover. -/
theorem Tagged.suspend (h : p.Tagged) (state : PlayerState) :
    Performs cleared p [] (p.suspend state) := by
  have preloaded : Performs cleared p [] ({ p with state := state } : Player).preload := by
    unfold preload
    dsimp only
    split
    next => exact .still h rfl rfl rfl rfl
    next => exact .still h rfl rfl rfl rfl
  refine preloaded.trans (r := p.suspend state) ?_
  unfold Player.suspend startFadeIn
  split
  next =>
    refine .of preloaded.tagged rfl (Staging.refl.drift ?_) (fun _ => .inl) fun id hid => ?_
    · exact .screen (.transition ..) nofun nofun _ _
    · cases hid
      exact .inr (((Animator.Grows.drop _ _).issued preloaded.tagged.issued).tags_push _ _ _)
  next => exact .still preloaded.tagged rfl rfl rfl rfl

/-- A node that is presented is staged, and the wait after it stages nothing more. -/
theorem Tagged.dispatch (h : p.Tagged) (n : Node) : Performs cleared p [n] (p.dispatch n).1 := by
  have staged := Session.staged p.setup false n p.session
  have reveal (id : TaskId) (hid : (Session.present p.setup false n p.session).reveal = some id) :=
    Session.present_reveal h.issued hid
  unfold Player.dispatch
  dsimp only
  generalize Session.present p.setup false n p.session = effect at staged reveal ⊢
  have presented : Performs cleared p [n] { p with
      current := some n.id, session := effect.session, reveal := effect.reveal.or p.reveal } := by
    refine .of h rfl (Staging.refl.node staged) (fun id hid => ?_) fun _ => .inl
    rcases Option.or_eq_some_iff.mp hid with new | ⟨-, old⟩
    · exact .inr (reveal id new)
    · exact .inl old
  unfold follow
  cases effect.next with
  | proceed =>
    exact presented.trans (.still presented.tagged rfl rfl rfl rfl)
  | waitClick => exact presented.trans (presented.tagged.suspend _)
  | waitChoice => exact presented.trans (presented.tagged.suspend _)
  | delay ms =>
    exact presented.trans (.still presented.tagged rfl rfl rfl rfl)

/-- Clearing the stage at the end stages no node. -/
theorem Tagged.finishClose (h : p.Tagged) (closing : p.state = .closing) :
    Performs p.finishClose.Struck p [] p.finishClose := by
  have struck : p.finishClose.Struck := .inl ⟨_, closing, rfl⟩
  exact .of h rfl (Staging.refl.drift (.clear struck)) (fun _ => .inl) fun _ => .inl

theorem Tagged.drawn (h : p.Tagged) : Performs cleared p [] p.drawn := by
  unfold Player.drawn
  cases opening : p.fadeIn with
  | none => exact .of h rfl .refl (fun _ => .inl) nofun
  | some id =>
    refine .of h rfl (Staging.refl.drift ?_) (fun _ => .inl) nofun
    exact .cancel (h.fadeIn id opening) nofun nofun

theorem Tagged.drawn_tagged (h : p.Tagged) : p.drawn.Tagged :=
  (h.drawn : Performs False p [] p.drawn).tagged

/-- Beginning to close starts a fade of the cover, or clears the stage. -/
theorem Tagged.beginClose (h : p.Tagged) : Performs p.beginClose.Struck p [] p.beginClose := by
  rw [beginClose_eq]
  split
  next =>
    refine h.drawn.trans (.of h.drawn_tagged rfl (Staging.refl.drift ?_) (fun _ => .inl) nofun)
    exact .screen (.transition ..) nofun nofun _ _
  next => exact h.drawn.trans (h.drawn_tagged.finishClose rfl)

/-- A round performs the node it presents. -/
theorem Tagged.step (h : p.Tagged) :
    Performs p.step.1.Struck p p.frame.presenting.toList p.step.1 := by
  cases presenting : p.frame.presenting with
  | some n =>
    rw [p.step_of_presenting presenting]
    exact h.dispatch n
  | none =>
    unfold Player.step
    cases here : p.frame.current with
    | none =>
      cases p.stack with
      | nil => exact h.beginClose
      | cons parent others => exact .still h rfl rfl rfl rfl
    | some n =>
      -- The node is one of the three kinds that only move the cursor.
      rw [Frame.presenting, here] at presenting
      dsimp only
      cases kind : n.kind with
      | label => exact .still h rfl rfl rfl rfl
      | goto =>
        dsimp only
        cases labelIndex p.root n.jumpTarget with
        | none => exact .still h rfl rfl rfl rfl
        | some i => exact .still h rfl rfl rfl rfl
      | conditional =>
        show Performs (p.enterBranch n).Struck p [] (p.enterBranch n)
        unfold enterBranch
        dsimp only
        split
        next => exact .still h rfl rfl rfl rfl
        next => exact .still h rfl rfl rfl rfl
      | _ => simp [Option.filter, kind] at presenting

/-- A round that goes on past the node it presents does what the node does. -/
theorem step_staged {n : Node} (presenting : p.frame.presenting = some n)
    (goesOn : n.next = .proceed) : Staged p.setup false n p.scenery p.step.1.scenery := by
  have staged := Session.staged p.setup false n p.session
  have next := Session.present_next p.setup n p.session
  rw [p.step_of_presenting presenting]
  unfold Player.dispatch
  dsimp only
  generalize Session.present p.setup false n p.session = effect at staged next ⊢
  rw [next, goesOn]
  exact staged

/-! ## Between the rounds -/

theorem Tagged.closeTick (h : p.Tagged) (closing : p.state = .closing) :
    Performs p.closeTick.Struck p [] p.closeTick := by
  unfold Player.closeTick
  split
  next =>
    split
    next => exact .still h rfl rfl rfl rfl
    next =>
      let covered := p.withStage { p.session.stage with transitionAlpha := 1 }
      have tagged : covered.Tagged := ⟨h.issued, h.reveal, h.fadeIn⟩
      have finished := tagged.finishClose closing
      exact ⟨rfl, finished.staging, finished.tagged⟩
  next =>
    split
    next => exact .still h rfl rfl rfl rfl
    next => exact .still h rfl rfl rfl rfl
  next => exact .still h rfl rfl rfl rfl

/-- What happens between the rounds presents nothing. -/
theorem Tagged.beat (h : p.Tagged) (beat : Beat p q) : Performs q.Struck p [] q := by
  cases beat with
  | countDown =>
    unfold Player.countDown
    split
    next =>
      split
      next => exact .still h rfl rfl rfl rfl
      next => exact .still h rfl rfl rfl rfl
    next => exact .still h rfl rfl rfl rfl
  | animate =>
    obtain ⟨session, hp, hstage, hanimator⟩ := p.animate_eq
    -- The scenery has a tick of its own, and that of the player is no other.
    have ticked : p.animate.scenery = p.scenery.tick p.setup.player.tickMs := by
      show p.animate.session.stage.scenery p.animate.session.animator = _
      rw [hp]
      dsimp only
      rw [hstage, hanimator]
      exact Scenery.tick_eq ..
    refine .of h p.animate_setup (ticked ▸ Staging.refl.drift .tick) ?_ ?_
    · rw [hp]
      exact fun _ => .inl
    · rw [hp]
      exact fun _ => .inl
  | closeTick closing => exact h.closeTick closing
  | @completeReveal id _ revealing =>
    refine .of h rfl (Staging.refl.drift ?_) nofun fun _ => .inl
    -- The identity is that of a reveal, so no task of an object is dropped by it.
    exact .cancel (h.reveal id revealing) nofun nofun
  | left _ => exact .of h rfl .refl nofun fun _ => .inl
  | chosen target _ =>
    unfold Player.chosen
    dsimp only
    split
    next => exact .still h rfl rfl rfl rfl
    next => exact .still h rfl rfl rfl rfl
  | takeCues => exact .still h rfl rfl rfl rfl

/-- A stage that was cleared is one that was cleared from then on. -/
theorem Struck.beat (h : p.Struck) (beat : Beat p q) : q.Struck := by
  have still {state : PlayerState} (hs : p.state = state) (other : state ≠ .closing)
      (other' : state ≠ .terminated) : False := by
    rcases h with ⟨n, closing, -⟩ | terminated
    · exact other (hs.symm.trans closing)
    · exact other' (hs.symm.trans terminated)
  cases beat with
  | countDown =>
    rw [p.countDown_eq fun ms hs => still hs nofun nofun]
    exact h
  | animate =>
    obtain ⟨session, hp, -, -⟩ := p.animate_eq
    rw [hp]
    exact h
  | closeTick closing =>
    rcases h with ⟨n, -, pause⟩ | terminated
    · unfold Player.closeTick
      rw [pause]
      dsimp only
      split
      next => exact .inl ⟨_, closing, rfl⟩
      next => exact .inr rfl
    · rw [closing] at terminated
      contradiction
  | completeReveal waiting _ => exact (still waiting nofun nofun).elim
  | left waiting => exact (still waiting nofun nofun).elim
  | chosen _ waiting => exact (still waiting nofun nofun).elim
  | takeCues => exact h

theorem not_struck_of_isWaiting (h : p.isWaiting) : ¬p.Struck := by
  rintro (⟨n, closing, -⟩ | terminated)
  · simp [isWaiting, closing] at h
  · simp [isWaiting, terminated] at h

/-! ## Whole sessions -/

/-- What a session plays is a staging. -/
theorem Plays.performs (h : Plays p ns q) (tagged : p.Tagged) : Performs q.Struck p ns q := by
  induction h with
  | refl => exact .still tagged rfl rfl rfl rfl
  | @round ns q _ running ih =>
    refine (ih.mono fun struck => ?_).trans ih.tagged.step
    rcases struck with ⟨n, closing, -⟩ | terminated
    · rw [running] at closing
      contradiction
    · rw [running] at terminated
      contradiction
  | @beat ns q r _ beat ih =>
    rw [← ns.append_nil]
    exact (ih.mono fun struck => struck.beat beat).trans (ih.tagged.beat beat)

/-- The player as a script begins: an empty stage without tasks, and the sample for letters
loaded anew. -/
def fresh (p : Player) : Player :=
  loadPool { p with
    session := { p.session with
      stage := .empty, vars := .empty, cues := []
      animator := p.session.animator.cancelAll }
    stack := [], reveal := none, fadeIn := none, closing := none, current := none }

theorem fresh_eq (p : Player) : ∃ audio loaded,
    p.fresh = { p with
      session :=
        { stage := .empty, vars := .empty, cues := [], animator := p.session.animator.cancelAll
          audio := audio, poolLoaded := loaded }
      stack := [], reveal := none, fadeIn := none, closing := none, current := none } :=
  loadPool_eq _

/-- The nodes that are applied before the loop begins. -/
def prelude (p : Player) (scenes : Block) (index : Nat) : List Node :=
  p.fresh.session.replayedAll p.setup (scenes.take (min index (scenes.length - 1)))

theorem prelude_zero (p : Player) (scenes : Block) : p.prelude scenes 0 = [] := by
  unfold prelude
  rw [Nat.zero_min, List.take_zero, Session.replayedAll]

/-- The scenery of a script before any node. -/
def bare (p : Player) : Scenery := ⟨.empty, "", p.session.animator.cancelAll⟩

/-- What is applied before the loop begins is a staging, with every change at once. -/
theorem opened_staging (p : Player) (scenes : Block) (index : Nat) :
    Staging p.setup true False p.bare (p.prelude scenes index) (p.opened scenes index).scenery := by
  have staging := Session.staging_replayAll p.setup p.fresh.session
    (scenes.take (min index (scenes.length - 1)))
  have begun : p.fresh.session.scenery = p.bare := by
    obtain ⟨audio, loaded, hp⟩ := p.fresh_eq
    rw [hp]
    rfl
  have setup : p.fresh.setup = p.setup := loadPool_setup _
  rw [begun] at staging
  show Staging p.setup true False p.bare (p.prelude scenes index)
    (p.fresh.session.replayAll p.fresh.setup
      (scenes.take (min index (scenes.length - 1)))).scenery
  rw [setup]
  exact staging

/-- The identities are right where the loop begins: none are kept from before. -/
theorem opened_tagged (p : Player) (scenes : Block) (index : Nat) :
    (p.opened scenes index).Tagged := by
  have issued : p.bare.animator.Issued := fun s hs => absurd hs List.not_mem_nil
  obtain ⟨audio, loaded, hp⟩ := p.fresh_eq
  have reveal : (p.opened scenes index).reveal = p.fresh.reveal := rfl
  have fadeIn : (p.opened scenes index).fadeIn = p.fresh.fadeIn := rfl
  refine ⟨(p.opened_staging scenes index).grows.issued issued, ?_, ?_⟩
  · rw [reveal, hp]
    nofun
  · rw [fadeIn, hp]
    nofun

/-! ## Where sessions begin -/

/-- A session that is taken up has no task in progress, and the background of the saved
one. -/
theorem takenUp_cases {s : Snapshot} (h : p.takenUp s = .ok q) :
    q.session.animator.slots = [] ∧ q.reveal = none ∧ q.fadeIn = none ∧
      q.session.stage.backgroundName = s.stage.backgroundName := by
  unfold takenUp at h
  dsimp only [bind, Except.bind] at h
  split at h
  next => contradiction
  next =>
    split at h
    next => contradiction
    next =>
      cases h
      refine ⟨rfl, rfl, rfl, ?_⟩
      dsimp only
      split
      next => rfl
      next => rfl

/-- The players that sessions begin with: where a script starts, and where a saved session
is taken up. -/
inductive Begun : Player → Prop
  | opened (p : Player) (scenes : Block) (index : Nat) : Begun (p.opened scenes index)
  | takenUp {p q : Player} {s : Snapshot} (h : p.takenUp s = .ok q) : Begun q

theorem Begun.tagged (h : Begun p) : p.Tagged := by
  cases h with
  | opened p scenes index => exact p.opened_tagged scenes index
  | takenUp h =>
    obtain ⟨slots, reveal, fadeIn, -⟩ := takenUp_cases h
    refine ⟨?_, by rw [reveal]; nofun, by rw [fadeIn]; nofun⟩
    unfold Animator.Issued
    rw [slots]
    nofun

/-- What a session plays from its beginning on is a staging. -/
theorem Begun.staging (h : Begun p) (plays : Plays p ns q) :
    Staging p.setup false q.Struck p.scenery ns q.scenery := (plays.performs h.tagged).staging

/-- A node that is presented at some moment of a session, and what the session plays after
it. -/
theorem Begun.presents {n : Node} (h : Begun p) (plays : Plays p ns q)
    (running : q.state = .running) (presenting : q.frame.presenting = some n)
    (goesOn : n.next = .proceed) (later : Plays q.step.1 ms r) :
    Staged p.setup false n q.scenery q.step.1.scenery ∧
      Staging p.setup false r.Struck q.step.1.scenery ms r.scenery := by
  have before := plays.performs h.tagged
  have after := (plays.round running).performs h.tagged
  have staged := step_staged presenting goesOn
  have staging := (later.performs after.tagged).staging
  rw [before.setup] at staged
  rw [after.setup] at staging
  exact ⟨staged, staging⟩

/-- What a session of a script plays is a staging. -/
theorem Plays.staging {scenes : Block} {index : Nat} (h : Plays (p.opened scenes index) ns q) :
    Staging p.setup false q.Struck (p.opened scenes index).scenery ns q.scenery := by
  have setup : (p.opened scenes index).setup = p.setup := loadPool_setup _
  rw [← setup]
  exact (Begun.opened p scenes index).staging h

end Player

end VisualNovel
