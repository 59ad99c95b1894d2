import VisualNovel.Proofs.Player.Cover
import VisualNovel.Proofs.Player.Moves

/-!
# The stage at the end

When the script runs out, the cover is drawn over the stage, everything is taken off
behind it, and after a pause the session is over. The tasks in progress go on all the
while. None of them can put an object back, and only a crossfade can bring a background
or take the cover off again.

> `moves_cases`: every moment of a session is before the end, in the closing fade, or
> after a moment at which the stage was cleared and covered.

> `terminated_cleared`: what is on stage when the session is over.
-/

namespace VisualNovel.Player

open Change

variable {p q : Player}

/-- A session before its end. -/
structure Open (p : Player) : Prop where
  notClosing : p.state ≠ .closing
  notTerminated : p.state ≠ .terminated
  covered : p.session.Covered p.fadeIn
  /-- The opening fade counts its steps in a word. -/
  steps : p.setup.player.transitionSteps < twoPow 32

/-- A session in its closing fade. -/
structure Fading (p : Player) (id : TaskId) : Prop where
  closing : p.state = .closing
  fade : p.closing = some (.fading id)
  slots : ∀ s ∈ p.session.animator.slots, Animator.isTransition s.task → s.id = id

/-- A player that has just cleared and covered its stage, with the pause before it. -/
structure Cleared (c : Player) : Prop where
  closing : c.state = .closing
  pause : c.closing = some (.grace c.setup.player.closeGraceMs)
  objects : c.session.stage.objects = .empty
  background : c.session.stage.background = none
  transitionAlpha : c.session.stage.transitionAlpha = 1
  slots : ∀ s ∈ c.session.animator.slots, Animator.isTransition s.task = false

/-- A player at or after the moment `c` at which its stage was cleared. -/
structure After (c q : Player) : Prop where
  past : (∃ n, q.state = .closing ∧ q.closing = some (.grace n)) ∨ q.state = .terminated
  objects : q.session.stage.objects = .empty
  slots : ∀ s ∈ q.session.animator.slots, Animator.isTransition s.task = false
  /-- Without a crossfade in progress nothing came back. -/
  still : (∀ s ∈ c.session.animator.slots, Animator.isCrossfade s.task = false) →
    (∀ s ∈ q.session.animator.slots, Animator.isCrossfade s.task = false) ∧
      q.session.stage.background = none ∧ q.session.stage.transitionAlpha = 1

theorem Cleared.after (h : p.Cleared) : After p p where
  past := .inl ⟨_, h.closing, h.pause⟩
  objects := h.objects
  slots := h.slots
  still := fun none => ⟨none, h.background, h.transitionAlpha⟩

/-! ## The end of the script -/

/-- The player as the closing fade begins, if one is needed: the opening fade is over. -/
def drawn (p : Player) : Player :=
  { (match p.fadeIn with
      | some id => p.withAnimator (p.session.animator.cancel id)
      | none => p) with
    fadeInPending := false, fadeIn := none, state := .closing }

/-- Closing ends the opening fade, and then fades to black or finishes at once. -/
theorem beginClose_eq (p : Player) :
    p.beginClose =
      if p.session.stage.transitionAlpha.less 1 then
        let (a, id) := p.drawn.session.animator.transition p.session.stage.transitionAlpha 1
          p.setup.player.transitionSteps
        { p.drawn.withAnimator a with closing := some (.fading id) }
      else p.drawn.finishClose := by
  unfold beginClose drawn
  cases p.fadeIn with
  | none => rfl
  | some id => rfl

/-- Of the screen-wide fades only the opening one could be in progress. -/
theorem Open.drawn_slots (h : p.Open) :
    ∀ s ∈ p.drawn.session.animator.slots, Animator.isTransition s.task = false := by
  -- Every fade of the cover in progress is the opening one, and that one was just cancelled.
  have opening : ∀ s ∈ p.session.animator.slots, Animator.isTransition s.task →
      p.fadeIn = some s.id := by
    intro s hs fade
    have covering := h.covered.slots s hs
    unfold Slot.Covering at covering
    cases ht : s.task with
    | transition start finish =>
      rw [ht] at covering
      exact covering.1
    | _ =>
      rw [ht] at fade
      contradiction
  intro s hs
  rw [← Bool.not_eq_true]
  intro fade
  unfold drawn at hs
  cases hf : p.fadeIn with
  | none =>
    rw [hf] at hs
    have := opening s hs fade
    rw [hf] at this
    contradiction
  | some id =>
    rw [hf] at hs
    obtain ⟨old, other⟩ := List.mem_filter.mp hs
    have := opening s old fade
    rw [hf] at this
    cases this
    simp at other

theorem drawn_stage (p : Player) : p.drawn.session.stage = p.session.stage := by
  unfold drawn
  cases p.fadeIn with
  | none => rfl
  | some id => rfl

/-- Clearing a stage that is covered. -/
theorem finishClose_cleared (closing : p.state = .closing)
    (covered : p.session.stage.transitionAlpha = 1)
    (slots : ∀ s ∈ p.session.animator.slots, Animator.isTransition s.task = false) :
    p.finishClose.Cleared where
  closing := closing
  pause := rfl
  objects := rfl
  background := rfl
  transitionAlpha := covered
  slots := slots

/-- At the end of the script the closing fade begins, or the stage is cleared, since it
is covered already. -/
theorem Open.beginClose (h : p.Open) :
    (∃ id, p.beginClose.Fading id) ∨ p.beginClose.Cleared := by
  rw [beginClose_eq]
  split
  next =>
    refine .inl ⟨_, rfl, rfl, Animator.forall_start ?_ fun _ => rfl⟩
    intro s _ other fade
    rw [fade] at other
    contradiction
  next full =>
    refine .inr (finishClose_cleared rfl ?_ h.drawn_slots)
    rw [drawn_stage]
    exact h.covered.atMostOne.eq_one (by simpa using full)

/-! ## One round -/

theorem Open.suspend (h : p.Open) {state : PlayerState} (notClosing : state ≠ .closing)
    (notTerminated : state ≠ .terminated) : (p.suspend state).Open := by
  have preloaded : ({ p with state := state } : Player).preload.Open := by
    unfold preload
    dsimp only
    split
    next => exact ⟨notClosing, notTerminated, h.covered, h.steps⟩
    next => exact ⟨notClosing, notTerminated, ⟨h.covered.atMostOne, h.covered.slots⟩, h.steps⟩
  unfold Player.suspend startFadeIn
  split
  next =>
    refine ⟨preloaded.notClosing, preloaded.notTerminated, ⟨preloaded.covered.atMostOne, ?_⟩,
      preloaded.steps⟩
    refine Animator.forall_start ?_ ?_
    · intro s hs other
      exact (preloaded.covered.slots s hs).reopen other _
    · have count := Fp.IsCount.of_word preloaded.steps.le
      exact ⟨rfl, preloaded.covered.atMostOne, rfl, rfl, count.pos, count⟩
  next => exact preloaded

/-- A node that is presented leaves the session open. -/
theorem Open.dispatch (h : p.Open) (n : Node) : (p.dispatch n).1.Open := by
  have presented := h.covered.present p.setup false n
  unfold Player.dispatch
  dsimp only
  generalize Session.present p.setup false n p.session = effect at presented ⊢
  have shown : Open { p with
      current := some n.id, session := effect.session, reveal := effect.reveal.or p.reveal } :=
    ⟨h.notClosing, h.notTerminated, presented, h.steps⟩
  unfold follow
  cases effect.next with
  | proceed => exact ⟨h.notClosing, h.notTerminated, presented, h.steps⟩
  | waitClick => exact shown.suspend nofun nofun
  | waitChoice => exact shown.suspend nofun nofun
  | delay ms => exact ⟨nofun, nofun, presented, h.steps⟩

/-- A round goes on with the story or comes to its end. -/
theorem Open.step (h : p.Open) :
    p.step.1.Open ∨ (∃ id, p.step.1.Fading id) ∨ p.step.1.Cleared := by
  have moved {q : Player} (hs : q.state = p.state) (hsession : q.session = p.session)
      (hf : q.fadeIn = p.fadeIn) (hsetup : q.setup = p.setup) : q.Open :=
    ⟨hs ▸ h.notClosing, hs ▸ h.notTerminated, by rw [hsession, hf]; exact h.covered,
      hsetup ▸ h.steps⟩
  unfold Player.step
  cases p.frame.current with
  | none =>
    cases p.stack with
    | nil => exact .inr h.beginClose
    | cons parent others => exact .inl (moved rfl rfl rfl rfl)
  | some n =>
    dsimp only
    cases n.kind with
    | label => exact .inl (moved rfl rfl rfl rfl)
    | goto =>
      dsimp only
      cases labelIndex p.root n.jumpTarget with
      | none => exact .inl (moved rfl rfl rfl rfl)
      | some i => exact .inl (moved rfl rfl rfl rfl)
    | conditional =>
      refine .inl ?_
      show (p.enterBranch n).Open
      unfold enterBranch
      dsimp only
      split
      next => exact moved rfl rfl rfl rfl
      next => exact moved rfl rfl rfl rfl
    | _ => exact .inl (h.dispatch n)

/-! ## One tick of the tasks -/

theorem Open.animate (h : p.Open) : p.animate.Open := by
  obtain ⟨session, hp, hstage, hanimator⟩ := p.animate_eq
  obtain ⟨top, slots⟩ := h.covered.tick p.setup.player.tickMs
  rw [hp]
  refine ⟨h.notClosing, h.notTerminated, ⟨?_, ?_⟩, h.steps⟩
  · rw [hstage]
    exact top
  · rw [hanimator]
    exact slots

theorem Fading.animate {id : TaskId} (h : p.Fading id) : p.animate.Fading id := by
  obtain ⟨session, hp, -, hanimator⟩ := p.animate_eq
  rw [hp]
  refine ⟨h.closing, h.fade, ?_⟩
  show ∀ t ∈ session.animator.slots, Animator.isTransition t.task → t.id = id
  rw [hanimator]
  refine Animator.forall_tick fun s hs t hn fade => ?_
  rw [Slot.isTransition_next hn] at fade
  rw [Slot.next_id hn]
  exact h.slots s hs fade

/-- No task puts an object on stage, and only a crossfade shows more than the cover. -/
theorem After.animate {c : Player} (h : After c p) : After c p.animate := by
  obtain ⟨session, hp, hstage, hanimator⟩ := p.animate_eq
  rw [hp]
  refine ⟨h.past, ?_, ?_, ?_⟩
  · show session.stage.objects = .empty
    rw [hstage, Animator.tick_stage]
    exact applyAll_objects_empty h.objects
  · show ∀ t ∈ session.animator.slots, Animator.isTransition t.task = false
    rw [hanimator]
    exact Animator.forall_tick fun s hs t hn => (Slot.isTransition_next hn).trans (h.slots s hs)
  · intro none
    obtain ⟨crossfades, background, alpha⟩ := h.still none
    refine ⟨?_, ?_, ?_⟩
    · show ∀ t ∈ session.animator.slots, Animator.isCrossfade t.task = false
      rw [hanimator]
      refine Animator.forall_tick fun s hs t hn => ?_
      exact (Slot.isCrossfade_next hn).trans (crossfades s hs)
    · show session.stage.background = .none
      rw [hstage, Animator.tick_stage, applyAll_background, background]
      intro name locator hm
      obtain ⟨s, hs, hm⟩ := List.mem_flatMap.mp hm
      -- Only a crossfade writes the background, and none is in progress.
      have := Slot.background_mem_changes hm
      rw [crossfades s hs] at this
      contradiction
    · show session.stage.transitionAlpha = 1
      rw [hstage, Animator.tick_stage]
      refine applyAll_transitionAlpha (P := (· = 1)) alpha fun x hx => ?_
      obtain ⟨s, hs, hx⟩ := List.mem_flatMap.mp hx
      -- Only the screen-wide fades write the cover, and neither is in progress.
      rcases Slot.cover_mem_changes hx with fade | fade
      · rw [h.slots s hs] at fade
        contradiction
      · rw [crossfades s hs] at fade
        contradiction

/-! ## Moves -/

theorem countDown_eq (p : Player) (h : ∀ ms, p.state ≠ .delaying ms) : p.countDown = p := by
  unfold countDown
  split
  next ms hs => exact absurd hs (h ms)
  next => rfl

/-- Before the end a move goes on with the story or comes to its end. -/
theorem Open.move (h : p.Open) (hm : Move p q) :
    q.Open ∨ (∃ id, q.Fading id) ∨ q.Cleared := by
  cases hm with
  | round => exact h.step
  | countDown =>
    refine .inl ?_
    unfold countDown
    split
    next ms _ =>
      split
      next => exact ⟨nofun, nofun, h.covered, h.steps⟩
      next => exact ⟨nofun, nofun, h.covered, h.steps⟩
    next => exact h
  | animate => exact .inl h.animate
  | closeTick closing => exact absurd closing h.notClosing
  | completeReveal id _ =>
    refine .inl ⟨h.notClosing, h.notTerminated, ⟨h.covered.atMostOne, ?_⟩, h.steps⟩
    intro s hs
    exact h.covered.slots s (List.mem_filter.mp hs).1
  | left _ => exact .inl ⟨nofun, nofun, h.covered, h.steps⟩
  | chosen target _ =>
    refine .inl ?_
    unfold chosen
    dsimp only
    split
    next => exact ⟨nofun, nofun, ⟨h.covered.atMostOne, h.covered.slots⟩, h.steps⟩
    next => exact ⟨nofun, nofun, ⟨h.covered.atMostOne, h.covered.slots⟩, h.steps⟩
  | takeCues =>
    exact .inl ⟨h.notClosing, h.notTerminated, ⟨h.covered.atMostOne, h.covered.slots⟩, h.steps⟩

/-- The closing fade goes on until its task is over, and then the stage is cleared. -/
theorem Fading.move {id : TaskId} (h : p.Fading id) (hm : Move p q) : q.Fading id ∨ q.Cleared := by
  cases hm with
  | round running => rw [h.closing] at running; contradiction
  | countDown =>
    rw [p.countDown_eq fun ms => by rw [h.closing]; nofun]
    exact .inl h
  | animate => exact .inl h.animate
  | closeTick =>
    unfold closeTick
    rw [h.fade]
    dsimp only
    split
    next => exact .inl h
    next done =>
      refine .inr (finishClose_cleared h.closing rfl ?_)
      intro s hs
      rw [← Bool.not_eq_true]
      intro fade
      refine done (List.any_eq_true.mpr ⟨s, hs, ?_⟩)
      exact beq_iff_eq.mpr (h.slots s hs fade)
  | completeReveal _ waiting => rw [h.closing] at waiting; contradiction
  | left waiting => rw [h.closing] at waiting; contradiction
  | chosen _ waiting => rw [h.closing] at waiting; contradiction
  | takeCues => exact .inl ⟨h.closing, h.fade, h.slots⟩

/-- After the stage is cleared nothing moves but the tasks and the pause at the end. -/
theorem After.move {c : Player} (h : After c p) (hm : Move p q) : After c q := by
  have still {state : PlayerState} (hs : p.state = state) (other : state ≠ .closing)
      (other' : state ≠ .terminated) : False := by
    rcases h.past with ⟨n, closing, -⟩ | terminated
    · exact other (hs.symm.trans closing)
    · exact other' (hs.symm.trans terminated)
  cases hm with
  | round running => exact (still running nofun nofun).elim
  | countDown =>
    rw [p.countDown_eq fun ms hs => still hs nofun nofun]
    exact h
  | animate => exact h.animate
  | closeTick closing =>
    rcases h.past with ⟨n, -, pause⟩ | terminated
    · unfold closeTick
      rw [pause]
      dsimp only
      split
      next => exact ⟨.inl ⟨_, closing, rfl⟩, h.objects, h.slots, h.still⟩
      next => exact ⟨.inr rfl, h.objects, h.slots, h.still⟩
    · rw [closing] at terminated
      contradiction
  | completeReveal _ waiting => exact (still waiting nofun nofun).elim
  | left waiting => exact (still waiting nofun nofun).elim
  | chosen _ waiting => exact (still waiting nofun nofun).elim
  | takeCues => exact ⟨h.past, h.objects, h.slots, h.still⟩

/-- From the moment on at which the stage is cleared, it stays so. -/
theorem Cleared.moves (h : p.Cleared) (hm : Moves p q) : After p q := by
  induction hm with
  | refl => exact h.after
  | tail _ move ih => exact ih.move move

/-- Every moment of a session is before its end, in the closing fade, or after a moment
at which the stage was cleared and covered. -/
theorem moves_cases (h : p.Open) (hm : Moves p q) :
    q.Open ∨ (∃ id, q.Fading id) ∨ ∃ c, Moves p c ∧ Moves c q ∧ c.Cleared := by
  induction hm with
  | refl => exact .inl h
  | @tail q r before move ih =>
    have whole : Moves p r := before.tail move
    rcases ih with going | ⟨id, fading⟩ | ⟨c, hc, hq, cleared⟩
    · rcases going.move move with going | fading | cleared
      · exact .inl going
      · exact .inr (.inl fading)
      · exact .inr (.inr ⟨r, whole, .refl, cleared⟩)
    · rcases fading.move move with fading | cleared
      · exact .inr (.inl ⟨id, fading⟩)
      · exact .inr (.inr ⟨r, whole, .refl, cleared⟩)
    · exact .inr (.inr ⟨c, hc, hq.tail move, cleared⟩)

/-! ## The end of a session -/

/-- The sample for letters is a matter of the audio sink alone. -/
theorem releasePool_eq (p : Player) : ∃ audio loaded,
    p.releasePool =
      { p with session := { p.session with audio := audio, poolLoaded := loaded } } := by
  unfold releasePool
  split
  next => exact ⟨_, _, rfl⟩
  next => exact ⟨_, _, rfl⟩

theorem loadPool_eq (p : Player) : ∃ audio loaded,
    p.loadPool = { p with session := { p.session with audio := audio, poolLoaded := loaded } } := by
  obtain ⟨audio, loaded, hr⟩ := p.releasePool_eq
  unfold loadPool
  rw [hr]
  dsimp only
  split
  next => exact ⟨_, _, rfl⟩
  next =>
    split
    next => exact ⟨_, _, rfl⟩
    next => exact ⟨_, _, rfl⟩

/-- A script begins under a full cover, with no task in progress. -/
theorem opened_open (p : Player) (scenes : Block) (index : Nat)
    (steps : p.setup.player.transitionSteps < twoPow 32) : (p.opened scenes index).Open := by
  unfold opened
  dsimp only
  obtain ⟨audio, loaded, hp⟩ := loadPool_eq { p with
    session := { p.session with
      stage := .empty, vars := .empty, cues := []
      animator := p.session.animator.cancelAll }
    stack := [], reveal := none, fadeIn := none, closing := none, current := none }
  rw [hp]
  refine ⟨nofun, nofun, ⟨Nat.le_refl _, ?_⟩, steps⟩
  refine (Session.Covered.replayAll _ ⟨Fp.atMostOne_zero, ?_⟩ _).slots
  exact fun s hs => absurd hs List.not_mem_nil

/-- When a session is over, by whatever ticks and answers, no object is on stage. There
was a moment at which the stage was cleared and covered and only the pause at the end was
left; and if no crossfade was in progress at that moment, there is still no background,
and the cover is still full. -/
theorem terminated_cleared (p : Player) (scenes : Block) (index : Nat)
    (steps : p.setup.player.transitionSteps < twoPow 32) {q : Player}
    (calls : Calls (p.start scenes index) q) (ended : q.state = .terminated) :
    q.session.stage.objects = .empty ∧
      (∃ c, Moves (p.opened scenes index) c ∧ Moves c q ∧ c.Cleared) ∧
      ∀ c, Moves c q → c.Cleared →
        (∀ s ∈ c.session.animator.slots, Animator.isCrossfade s.task = false) →
          q.session.stage.background = none ∧ q.session.stage.transitionAlpha = 1 := by
  have whole : Moves (p.opened scenes index) q :=
    (p.moves_start scenes index).trans (moves_of_calls calls)
  rcases moves_cases (p.opened_open scenes index steps) whole with going | ⟨id, fading⟩ | clearing
  · exact absurd ended going.notTerminated
  · rw [fading.closing] at ended
    contradiction
  · have ⟨c, _, hq, cleared⟩ := clearing
    refine ⟨(cleared.moves hq).objects, clearing, ?_⟩
    intro c hq cleared none
    exact ((cleared.moves hq).still none).2

theorem calls_tick (n : Nat) (p : Player) : Calls p (tick^[n] p) := by
  induction n generalizing p with
  | zero => exact .refl
  | succ n ih => exact .head (.tick p) (ih p.tick)

/-- A picture and one line, left by a click once it is revealed: after the closing fade
the stage is cleared, and so it is when the session is over. -/
theorem terminated_cleared_logo :
    let begun := (new ⟨.any, {}, {}⟩ .accepting).start
      [.directive "@image_in" ["logo"], .dialogue "" "only"] 0
    let c := tick^[20] (tick^[25] begun).advance
    let q := tick^[32] c
    begun.session.stage.objects.keys = ["logo"] ∧ q.state = .terminated ∧
      q.session.stage.objects = .empty ∧ q.session.stage.background = none ∧
      q.session.stage.transitionAlpha = 1 := by
  intro begun c q
  have ended : q.state = .terminated := by decide +kernel
  have rest : Calls c q := calls_tick 32 c
  have calls : Calls begun q :=
    (((calls_tick 25 begun).tail (.advance _)).trans (calls_tick 20 _)).trans rest
  have cleared : c.Cleared :=
    ⟨by decide +kernel, by decide +kernel, by decide +kernel, by decide +kernel,
      by decide +kernel, by decide +kernel⟩
  have outcome := terminated_cleared (new ⟨.any, {}, {}⟩ .accepting)
    [.directive "@image_in" ["logo"], .dialogue "" "only"] 0 (by decide) calls ended
  exact ⟨by decide +kernel, ended, outcome.1,
    outcome.2.2 c (moves_of_calls rest) cleared (by decide +kernel)⟩

/-- A script that ends while its background changes: the stage is cleared under the full
cover it has from the beginning, and then the change goes on, shows the new background
and takes the cover off. -/
theorem terminated_uncovered :
    let begun := (new ⟨.any, {}, {}⟩ .accepting).start [.directive "@bg" ["room", "100"]] 0
    let q := tick^[32] begun
    Calls begun q ∧ q.state = .terminated ∧ .finished ∈ q.session.cues ∧
      q.session.stage.background = some "bg/room" ∧ q.session.stage.transitionAlpha = 0 := by
  intro begun q
  exact ⟨calls_tick 32 begun, by decide +kernel⟩

end VisualNovel.Player
