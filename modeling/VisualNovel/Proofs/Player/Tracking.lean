import VisualNovel.Proofs.Player.Story

/-!
# A player tracks its story

The loop of a player stops where its budget ends, waits out pauses and animates tasks
in between, but it never leaves the one path its story takes:

> `step_story`: a round of the loop is a round of the story.

> `leads_runFor`, `leads_tick`: whatever a run or a tick does, the story it ends in is
> one the story led to before.

> `leads_start`: where a start ends, the opening of the script led to.

> `leads_feed`: feeding a reply to a player does to its story what `Story.reply` does,
> and lets it go on from there.
-/

namespace VisualNovel

/-! ## One round of a player -/

namespace Player

open Story (Leads)

variable (p : Player)

theorem story_frame : p.story.frame = p.frame := rfl

theorem story_stack : p.story.stack = p.stack := rfl

theorem story_root : p.story.root = p.root := rfl

/-- Changing the stage leaves the story if it leaves the narration. -/
theorem withStage_story {stage : Stage}
    (h : stage.narration p.session.vars = p.session.narration) :
    (p.withStage stage).story = p.story := by
  show Story.mk p.state p.root p.frame p.stack (stage.narration p.session.vars) = _
  rw [h]
  rfl

/-- Looking ahead is no matter of the story. -/
@[simp] theorem preload_story : p.preload.story = p.story := by
  unfold preload
  dsimp only
  split
  next => rfl
  next => rfl

/-- Neither is fading in. -/
@[simp] theorem startFadeIn_story : p.startFadeIn.story = p.story := by
  unfold startFadeIn
  split
  next => rfl
  next => rfl

/-- A wait changes the state of the story only. -/
theorem suspend_story (state : PlayerState) :
    (p.suspend state).story = { p.story with state := state } := by
  unfold suspend
  rw [startFadeIn_story, preload_story]
  rfl

/-- So does the end. -/
theorem beginClose_story : p.beginClose.story = { p.story with state := .closing } := by
  unfold beginClose
  cases p.fadeIn with
  | none =>
    dsimp only
    split
    next => rfl
    next => rfl
  | some id =>
    dsimp only
    split
    next => rfl
    next => rfl

/-- A player that enters a branch does to its story what entering a branch does. -/
theorem enterBranch_story (n : Node) : (p.enterBranch n).story = p.story.enterBranch n := by
  unfold enterBranch Story.enterBranch
  show _ = if (n.branch (conditionHolds p.session.vars n)).isEmpty then _ else _
  dsimp only
  split
  next => rfl
  next => rfl

/-- What comes after a node is what comes after it in the story. -/
theorem follow_story (next : Next) : (p.follow next).1.story = p.story.follow next := by
  cases next with
  | proceed => rfl
  | waitClick => exact p.suspend_story .waitingForClick
  | waitChoice => exact p.suspend_story .waitingForChoice
  | delay ms => rfl

/-- Presenting a node is presenting it in the story. -/
theorem dispatch_story (n : Node) : (p.dispatch n).1.story = p.story.dispatch n := by
  unfold dispatch Story.dispatch
  rw [follow_story, Session.present_next]
  congr 1
  show Story.mk _ _ _ _ _ = _
  rw [Session.present_narration]
  rfl

/-- A round of a player is a round of its story. -/
theorem step_story : p.step.1.story = p.story.round := by
  unfold step Story.round
  rw [story_frame]
  cases p.frame.current with
  | none =>
    dsimp only
    rw [story_stack]
    cases hs : p.stack with
    | nil =>
      show p.beginClose.story = ⟨.closing, p.root, p.frame, [], p.session.narration⟩
      rw [beginClose_story, ← hs]
      rfl
    | cons parent others => rfl
  | some n =>
    dsimp only
    cases n.kind with
    | label => rfl
    | goto =>
      dsimp only
      rw [story_root]
      cases labelIndex p.root n.jumpTarget with
      | none => rfl
      | some i => rfl
    | conditional => exact p.enterBranch_story n
    | _ => exact p.dispatch_story n

/-- The loop goes on only while the state stays. -/
theorem follow_state {next : Next} (h : (p.follow next).2 = true) :
    (p.follow next).1.state = p.state := by
  cases next with
  | proceed => rfl
  | waitClick => exact absurd h Bool.false_ne_true
  | waitChoice => exact absurd h Bool.false_ne_true
  | delay ms => exact absurd h Bool.false_ne_true

theorem enterBranch_state (n : Node) : (p.enterBranch n).state = p.state := by
  unfold enterBranch
  dsimp only
  split
  next => rfl
  next => rfl

/-- A round that lets the loop go on leaves the player running. -/
theorem step_state : p.step.2 = true → p.step.1.state = p.state := by
  unfold step
  cases p.frame.current with
  | none =>
    cases p.stack with
    | nil => exact fun h => absurd h Bool.false_ne_true
    | cons parent others => exact fun _ => rfl
  | some n =>
    dsimp only
    cases n.kind with
    | label => exact fun _ => rfl
    | goto =>
      dsimp only
      cases labelIndex p.root n.jumpTarget with
      | none => exact fun _ => rfl
      | some i => exact fun _ => rfl
    | conditional => exact fun _ => p.enterBranch_state n
    | _ => exact follow_state _

/-- The story a run ends in is one the story led to before. -/
theorem leads_runFor (budget : Nat) (h : p.state = .running) :
    Leads p.story.untimed (p.runFor budget).story.untimed := by
  induction budget generalizing p with
  | zero => exact .refl
  | succ budget ih =>
    have first : Leads p.story.untimed p.step.1.story.untimed := by
      rw [step_story, Story.untimed_of_running (s := p.story) h]
      exact .round h
    unfold runFor
    cases hs : p.step with
    | mk q goes =>
      rw [hs] at first
      cases goes with
      | false => exact first
      | true =>
        have hq : q.state = .running := by
          have := p.step_state (by rw [hs])
          rw [hs] at this
          exact this.trans h
        exact first.trans (ih q hq)

/-- A run leads the story on. -/
theorem leads_run (h : p.state = .running) : Leads p.story.untimed p.run.story.untimed :=
  p.leads_runFor _ h

/-- A run whose first round comes to a wait ends there, whatever its budget. -/
theorem run_story_of_isWaiting (h : p.state = .running) (hw : p.story.round.isWaiting = true) :
    p.run.story = p.story.round := by
  have stops : p.step.2 = false := by
    rw [← step_story] at hw
    cases hs : p.step.2 with
    | false => rfl
    | true =>
      have : p.step.1.state = .running := (p.step_state hs).trans h
      simp [Story.isWaiting, story, this] at hw
  have budget : max p.setup.player.stepsPerRun 1 = (max p.setup.player.stepsPerRun 1 - 1) + 1 := by
    omega
  unfold run
  rw [budget, runFor, ← step_story]
  generalize p.step = r at stops
  obtain ⟨q, goes⟩ := r
  cases stops
  rfl

/-! ## Starting -/

/-- Letting the sample for letters go is no matter of the story. -/
theorem releasePool_story : p.releasePool.story = p.story := by
  unfold releasePool
  split
  next => rfl
  next => rfl

/-- Whether the sample for letters is found and loaded is no matter of the story. -/
theorem loadPool_story : p.loadPool.story = p.story := by
  unfold loadPool
  dsimp only
  split
  next => exact p.releasePool_story
  next =>
    split
    next => exact p.releasePool_story
    next => exact p.releasePool_story

/-- The player as its loop begins on a script: the nodes before the index are applied. -/
def opened (scenes : Block) (index : Nat) : Player :=
  let q := loadPool { p with
    session := { p.session with
      stage := .empty, vars := .empty, cues := []
      animator := p.session.animator.cancelAll }
    stack := [], reveal := none, fadeIn := none, closing := none, current := none }
  let index := min index (scenes.length - 1)
  let session := q.session.replayAll q.setup (scenes.take index)
  { q with
    session := { session with stage := { session.stage with transitionAlpha := 1 } }
    root := scenes, frame := ⟨scenes, index, []⟩, fadeInPending := true, state := .running }

/-- A start opens the script and runs the loop. -/
theorem start_eq (scenes : Block) (index : Nat) :
    p.start scenes index = (p.opened scenes index).run := rfl

/-- Whatever came before, a script opens the same way. -/
theorem opened_story (scenes : Block) (index : Nat) :
    (p.opened scenes index).story = Story.opening scenes index := by
  let cleared : Player := { p with
    session := { p.session with
      stage := .empty, vars := .empty, cues := []
      animator := p.session.animator.cancelAll }
    stack := [], reveal := none, fadeIn := none, closing := none, current := none }
  have pooled : cleared.loadPool.story = cleared.story := cleared.loadPool_story
  have hstack : cleared.loadPool.stack = [] := congrArg Story.stack pooled
  have hnarration : cleared.loadPool.session.narration = .empty := congrArg Story.narration pooled
  show Story.mk .running scenes _ cleared.loadPool.stack
    (cleared.loadPool.session.replayAll _ _).narration = _
  rw [Session.replayAll_narration, hstack, hnarration]
  rfl

/-- Every start of a script at an index is led to by the same opening. -/
theorem leads_start (scenes : Block) (index : Nat) :
    Leads (Story.opening scenes index) (p.start scenes index).story.untimed := by
  have led := (p.opened scenes index).leads_run rfl
  rwa [opened_story] at led

/-! ## Ticks -/

/-- Signals are told and sounded beside the story. -/
@[simp] theorem handle_story (signal : Signal) : (p.handle signal).story = p.story := by
  cases signal with
  | letter index =>
    unfold handle
    dsimp only
    split
    next => rfl
    next => rfl
  | backgroundSwapped name locator => rfl

theorem foldl_handle_story (signals : List Signal) (p : Player) :
    (signals.foldl handle p).story = p.story := by
  induction signals generalizing p with
  | nil => rfl
  | cons signal signals ih => rw [List.foldl_cons, ih, handle_story]

/-- Tasks do not touch the story. -/
theorem animate_story : p.animate.story = p.story := by
  unfold animate
  dsimp only
  rw [foldl_handle_story]
  exact (p.withAnimator _).withStage_story (Animator.tick_narration _ _ _ _)

/-- A pause counts as going on, however much of it is left. -/
theorem countDown_story : p.countDown.story.untimed = p.story.untimed := by
  obtain ⟨setup, session, root, frame, stack, state, reveal, pending, fadeIn, closing, current⟩ := p
  cases state with
  | delaying remaining =>
    unfold countDown
    dsimp only
    split
    next => rfl
    next => rfl
  | _ => rfl

/-- The end counts as reached from when it begins. -/
theorem closeTick_story (h : p.state = .closing) : p.closeTick.story.untimed = p.story.untimed := by
  unfold closeTick
  split
  next =>
    split
    next => rfl
    next => rfl
  next =>
    split
    next => rfl
    next =>
      show Story.mk _ _ _ _ _ = Story.mk p.state.untimed _ _ _ _
      rw [h]
      rfl
  next => rfl

/-- Whatever a tick does, the story it ends in is one the story led to before. -/
theorem leads_tick : Leads p.story.untimed p.tick.story.untimed := by
  have resumed : Leads p.story.untimed p.countDown.resume.story.untimed := by
    rw [← p.countDown_story]
    unfold resume
    split
    next h => exact p.countDown.leads_run h
    next => exact .refl
  unfold tick
  dsimp only
  split
  next h => rwa [closeTick_story _ h, animate_story]
  next => rwa [animate_story]

/-! ## Answers -/

/-- Showing a line in full is no matter of the story. -/
theorem completeReveal_story (id : TaskId) : (p.completeReveal id).story = p.story := rfl

/-- Leaving a line by itself; a line in mid-reveal is completed instead. -/
theorem advance_cases : p.advance = p ∨ (∃ id, p.advance = p.completeReveal id) ∨
    (p.state = .waitingForClick ∧ p.advance = p.leave) := by
  unfold advance
  split
  next hw =>
    split
    next id _ =>
      split
      next => exact .inr (.inl ⟨id, rfl⟩)
      next => exact .inr (.inr ⟨hw, rfl⟩)
    next => exact .inr (.inr ⟨hw, rfl⟩)
  next => exact .inl rfl

/-- Leaving a line leads the story on from behind it. -/
theorem leads_leave : Leads p.story.leave p.leave.story.untimed :=
  leads_run { p with reveal := none, state := .running, frame := p.frame.advance } rfl

/-- A click that is no longer needed to complete a line leaves it. -/
theorem advance_of_not_isRevealing (hw : p.state = .waitingForClick)
    (hr : p.isRevealing = false) : p.advance = p.leave := by
  unfold advance
  rw [if_pos hw]
  cases hid : p.reveal with
  | none => rfl
  | some id =>
    have : p.session.animator.isRunning id = false := by simpa [isRevealing, hid] using hr
    simp [this]

/-- A click in mid-reveal completes the line. -/
theorem advance_of_isRevealing (hw : p.state = .waitingForClick) (hr : p.isRevealing = true) :
    ∃ id, p.advance = p.completeReveal id := by
  unfold advance
  rw [if_pos hw]
  cases hid : p.reveal with
  | none => simp [isRevealing, hid] at hr
  | some id =>
    have : p.session.animator.isRunning id = true := by simpa [isRevealing, hid] using hr
    exact ⟨id, by simp [this]⟩

/-- Proceeding leaves the line, revealed or not. -/
theorem proceed_eq_leave (hw : p.state = .waitingForClick) :
    ∃ q : Player, q.story = p.story ∧ p.proceed = q.leave := by
  unfold proceed
  split
  next hr =>
    obtain ⟨id, hid⟩ := p.advance_of_isRevealing hw hr
    refine ⟨p.completeReveal id, p.completeReveal_story id, ?_⟩
    rw [hid]
    exact advance_of_not_isRevealing _ hw rfl
  next hr => exact ⟨p, rfl, p.advance_of_not_isRevealing hw (by simpa using hr)⟩

/-- Proceeding is ignored unless the player waits for a click. -/
theorem proceed_of_not_waiting (hw : p.state ≠ .waitingForClick) : p.proceed = p := by
  have : p.advance = p := by
    unfold advance
    rw [if_neg hw]
  unfold proceed
  split
  next => rw [this, this]
  next => exact this

theorem withStage_targetIndex (stage : Stage) (target : String) :
    (p.withStage stage).targetIndex target = p.targetIndex target := rfl

/-- A chosen target leads the story on from there. -/
theorem leads_choose (target : String) (hw : p.state = .waitingForChoice) :
    Leads (p.story.choose target) (p.choose target).story.untimed := by
  have resumed (q : Player) (hq : q.story = p.story.answered.land target) :
      Leads (p.story.choose target) ({ q with state := .running } : Player).run.story.untimed := by
    have := leads_run { q with state := .running } rfl
    rw [Story.choose, ← hq]
    exact this
  unfold choose
  rw [if_pos hw]
  refine resumed _ ?_
  unfold Story.land
  rw [show p.story.answered.targetIndex target = p.targetIndex target from rfl]
  dsimp only
  rw [withStage_targetIndex]
  cases p.targetIndex target with
  | none => rfl
  | some i => rfl

/-- Picking an option is picking its target; other positions are ignored. -/
theorem leads_chooseOption (index : Nat) :
    Leads (p.story.reply (.choose index)).untimed (p.chooseOption index).story.untimed := by
  unfold chooseOption Story.reply
  dsimp only
  by_cases hw : p.state = .waitingForChoice
  · rw [if_pos hw, if_pos (show p.story.state = .waitingForChoice from hw)]
    rw [story_frame]
    cases p.frame.current.bind fun n => n.options[index]? with
    | none => exact .refl
    | some o => exact p.leads_choose o.target hw
  · rw [if_neg hw, if_neg (show ¬p.story.state = .waitingForChoice from hw)]
    exact .refl

/-- Proceeding leads the story where the reply does. -/
theorem leads_proceed : Leads (p.story.reply .proceed).untimed p.proceed.story.untimed := by
  unfold Story.reply
  dsimp only
  by_cases hw : p.state = .waitingForClick
  · rw [if_pos (show p.story.state = .waitingForClick from hw)]
    obtain ⟨q, hq, hp⟩ := p.proceed_eq_leave hw
    rw [hp, ← hq]
    exact q.leads_leave
  · rw [if_neg (show ¬p.story.state = .waitingForClick from hw), p.proceed_of_not_waiting hw]
    exact .refl

/-- Feeding a reply does to the story what `Story.reply` does, and lets it go on. -/
theorem leads_feed (slots : SaveSlots Id) (r : Reply) :
    Leads (p.story.reply r).untimed (Id.run (p.feed slots r.answer)).story.untimed := by
  cases r with
  | proceed => exact p.leads_proceed
  | choose index => exact p.leads_chooseOption index

end Player

end VisualNovel
