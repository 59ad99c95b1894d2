import VisualNovel.Proofs.Player.Landing
import VisualNovel.Proofs.Player.Reachable
import VisualNovel.Proofs.Player.Silence

/-!
# What a player waits for is what it shows

The state of a player, its cursor, the choices and the message on stage and the tasks in
progress are changed in different places, and they always fit together. A player waits for a
click at a line or at a pause for one, and for a choice at a choice whose options are on
stage; at no other time are there any. The message is a beginning of the line. It is revealed
by one task, which the player knows, as long as it waits at the line, and by none otherwise.

`Spoken` is the part about the message and its reveal, and `Addressed` adds the choices. A
round keeps both since only a line starts a reveal and only a choice puts options on stage,
and each of them ends the run.

> `Spoken.step`, `Addressed.step`: what a round of the loop keeps.

> `Reachable.addressed`: so it is for every player a host can come to.

> `suspension_coherent`: what a player waits for, with the choices and the message on stage.
-/

namespace VisualNovel

theorem Node.kind_of_waitClick {n : Node} (h : n.next = .waitClick) :
    n.kind = .text ∨ n.kind = .waitForClick ∨ n.kind = .wait ∧ n.token = "@wait_click" := by
  unfold Node.next at h
  split at h
  next kind => exact .inl kind
  next kind =>
    split at h
    next click =>
      unfold Session.waitsForClick at click
      rw [kind] at click
      simp only [reduceCtorEq, decide_false, Bool.false_or, beq_iff_eq] at click
      exact .inr (.inr ⟨kind, click⟩)
    next => split at h <;> contradiction
  next kind => exact .inr (.inl kind)
  next => split at h <;> contradiction
  next => contradiction

/-- Only a choice with options makes the player wait for one. -/
theorem Node.offers_of_waitChoice {n : Node} (h : n.next = .waitChoice) :
    n.kind = .choicePrompt ∧ n.options ≠ [] := by
  have kind : n.kind = .choicePrompt := kind_of_waitChoice h
  unfold Node.next at h
  rw [kind] at h
  dsimp only at h
  split at h
  next => contradiction
  next offers => exact ⟨kind, by simpa using offers⟩

namespace Player

open Session (Silent)

variable {p q r : Player}

/-- The player waits at a line, and the only reveal in progress is that of the line. -/
structure Revealing (p : Player) : Prop where
  waiting : p.state = .waitingForClick
  line : ∃ (n : Node) (s : Slot), p.frame.current = some n ∧ n.kind = .text ∧
    p.session.animator.reveals = [s] ∧ p.reveal = some s.id ∧
      s.task.line? = some n.text.toList ∧ p.session.stage.targetMessage = n.text

/-- The message fits, and it is being revealed at a line only. -/
structure Spoken (p : Player) : Prop where
  message : p.session.MessageFits
  reveals : p.session.animator.reveals = [] ∨ p.Revealing

/-- Besides, there are choices on stage only where the player waits for one. -/
structure Addressed (p : Player) : Prop extends Spoken p where
  choices : p.state ≠ .waitingForChoice → p.session.stage.choices = []

/-- Nothing is revealed unless the player waits for a click. -/
theorem Spoken.reveals_eq_nil (h : p.Spoken) (hs : p.state ≠ .waitingForClick) :
    p.session.animator.reveals = [] :=
  h.reveals.resolve_right fun revealing => hs revealing.waiting

/-- Every reveal in progress is of the line. -/
theorem Spoken.line?_of_mem (h : p.Spoken) {s : Slot} (hs : s ∈ p.session.animator.reveals) :
    s.task.line? = some p.session.stage.targetMessage.toList := by
  rcases h.reveals with none | revealing
  · rw [none] at hs
    contradiction
  · obtain ⟨n, r, -, -, one, -, line, target⟩ := revealing.line
    rw [one] at hs
    cases List.mem_singleton.mp hs
    rw [line, target]

/-- Nor is anything revealed once the reveal that the player knows has ceased. -/
theorem Spoken.reveals_eq_nil_of_idle (h : p.Spoken) (idle : p.isRevealing = false) :
    p.session.animator.reveals = [] := by
  refine h.reveals.resolve_right fun revealing => ?_
  obtain ⟨n, s, -, -, one, known, -⟩ := revealing.line
  have running := Animator.isRunning_of_mem_reveals (one ▸ List.mem_singleton_self s)
  unfold isRevealing at idle
  rw [known, Option.any_some, running] at idle
  contradiction

/-- Where nothing is revealed, a player goes on being spoken to in silence. -/
theorem Spoken.of_silent (h : p.Spoken) (none : p.session.animator.reveals = [])
    (silent : Silent p.session q.session) : q.Spoken :=
  ⟨silent.message h.message, .inl (silent.reveals.trans none)⟩

/-! ## One round -/

/-- A line is revealed once it is presented. -/
theorem spoken_dispatch_text {n : Node} (here : p.frame.current = some n)
    (kind : n.kind = .text) : (p.dispatch n).1.Spoken := by
  have speaks : Session.Speaks n p.session (p.session.present p.setup false n) :=
    Session.speaks_present kind
  obtain ⟨s, reveals, id, line⟩ := speaks.reveal
  obtain ⟨silent, stage, state, frame, reveal⟩ := (p.presented n).suspend_cases .waitingForClick
  rw [dispatch_of_text kind]
  refine ⟨silent.message ?_,
    .inr ⟨state, n, s, ?_, kind, silent.reveals.trans reveals, ?_, line, ?_⟩⟩
  · show (Session.present p.setup false n p.session).session.MessageFits
    unfold Session.MessageFits
    rw [speaks.message]
    exact List.nil_prefix
  · rw [frame]
    exact here
  · rw [reveal]
    exact Option.or_eq_some_iff.mpr (.inl id)
  · rw [stage]
    exact speaks.target

/-- Any other node leaves the message and its reveal alone. -/
theorem Spoken.dispatch_other (h : p.Spoken) (none : p.session.animator.reveals = [])
    {n : Node} (text : n.kind ≠ .text) : (p.dispatch n).1.Spoken := by
  have presented : (p.presented n).session.MessageFits ∧
      (p.presented n).session.animator.reveals = [] := by
    unfold presented
    by_cases choice : n.kind = .choicePrompt
    · by_cases offers : n.options = []
      · rw [Session.present_choice_nil choice offers]
        exact ⟨h.message, none⟩
      · rw [Session.present_choice choice offers]
        exact ⟨h.message, none⟩
    · have silent : Silent p.session (p.session.present p.setup false n).session :=
        Session.silent_present text choice
      exact ⟨silent.message h.message, silent.reveals.trans none⟩
  have followed := (p.presented n).silent_follow (p.session.present p.setup false n).next
  rw [dispatch_eq]
  exact ⟨followed.message presented.1, .inl (followed.reveals.trans presented.2)⟩

/-- At the end of the script nothing is revealed either. -/
theorem Spoken.beginClose (h : p.Spoken) (none : p.session.animator.reveals = []) :
    p.beginClose.Spoken := by
  have drawn : p.drawn.session.animator.reveals = [] := by
    unfold Player.drawn
    cases p.fadeIn with
    | none => exact none
    | some id =>
      refine (p.session.animator.reveals_cancel id).trans ?_
      rw [none]
      rfl
  have message : p.drawn.session.MessageFits := by
    unfold Session.MessageFits
    rw [drawn_stage]
    exact h.message
  rw [beginClose_eq]
  split
  next =>
    refine ⟨message, .inl ?_⟩
    exact (Animator.reveals_start _ (.transition ..) nofun _ _).trans drawn
  next => exact ⟨message, .inl drawn⟩

/-- A round keeps the message a beginning of the line, and reveals it at a line only. -/
theorem Spoken.step (h : p.Spoken) (running : p.state = .running) : p.step.1.Spoken := by
  have none : p.session.animator.reveals = [] := h.reveals_eq_nil (by simp [running])
  cases presenting : p.frame.presenting with
  | some n =>
    rw [p.step_of_presenting presenting]
    by_cases text : n.kind = .text
    · exact spoken_dispatch_text (current_of_presenting presenting) text
    · exact h.dispatch_other none text
  | none =>
    rcases step_of_presenting_none presenting with ⟨same, -⟩ | closing
    · exact h.of_silent none (same ▸ .refl _)
    · rw [closing]
      exact h.beginClose none

theorem Spoken.run (h : p.Spoken) (running : p.state = .running) : p.run.Spoken :=
  run_keeps (fun _ before => before.step) h running

/-- A round puts choices on stage only where the player then waits for one. -/
theorem Addressed.step (h : p.Addressed) (running : p.state = .running) : p.step.1.Addressed := by
  refine ⟨h.toSpoken.step running, fun waits => ?_⟩
  have none : p.session.stage.choices = [] := h.choices (by simp [running])
  cases presenting : p.frame.presenting with
  | some n =>
    rw [p.step_of_presenting presenting] at waits ⊢
    have followed := (p.presented n).silent_follow (p.session.present p.setup false n).next
    rw [dispatch_eq]
    refine followed.choices.trans ?_
    by_cases text : n.kind = .text
    · exact (Session.speaks_present text).choices.trans none
    · by_cases choice : n.kind = .choicePrompt
      · by_cases offers : n.options = []
        · unfold presented
          rw [Session.present_choice_nil choice offers]
          exact none
        · -- The player waits for the choice, which was excluded.
          rw [dispatch_of_choice choice offers] at waits
          exact absurd ((p.presented n).suspend_cases .waitingForChoice).2.2.1 waits
      · exact (Session.silent_present text choice).choices.trans none
  | none =>
    rcases step_of_presenting_none presenting with ⟨same, -⟩ | closing
    · rwa [same]
    · rw [closing, beginClose_eq]
      split
      next => exact (congrArg Stage.choices p.drawn_stage).trans none
      next => exact (congrArg Stage.choices p.drawn_stage).trans none

/-- So does a run: each round is one from a running player, where nothing is revealed. -/
theorem Addressed.run (h : p.Addressed) (running : p.state = .running) : p.run.Addressed :=
  run_keeps (fun _ before => before.step) h running

/-! ## Ticks -/

/-- A tick of the tasks shows more of the line, or all of it. -/
theorem Addressed.animate (h : p.Addressed) : p.animate.Addressed := by
  obtain ⟨session, hp, stage, animator⟩ := p.animate_eq
  have told := p.session.animator.tick_narration p.setup.player.tickMs p.session.stage .empty
  have target : session.stage.targetMessage = p.session.stage.targetMessage := by
    rw [stage]
    exact congrArg Narration.target told
  have reveals : session.animator.reveals =
      p.session.animator.reveals.filterMap (Slot.next p.setup.player.tickMs) := by
    rw [animator]
    exact Animator.reveals_tick ..
  rw [hp]
  refine ⟨⟨?_, ?_⟩, fun waits => ?_⟩
  · show session.stage.message.toList <+: session.stage.targetMessage.toList
    rw [target, stage]
    exact Animator.tick_message_isPrefix h.message fun _ => h.line?_of_mem
  · rcases h.reveals with none | revealing
    · left
      show session.animator.reveals = []
      rw [reveals, none]
      rfl
    · obtain ⟨n, r, here, kind, one, id, line, aim⟩ := revealing.line
      rw [one] at reveals
      -- The reveal ends with this tick, or goes on under its identity with its line.
      cases next : r.next p.setup.player.tickMs with
      | none =>
        left
        show session.animator.reveals = []
        rw [reveals, List.filterMap_cons_none next]
        rfl
      | some s =>
        right
        rw [List.filterMap_cons_some next] at reveals
        refine ⟨revealing.waiting, n, s, here, kind, reveals, ?_, ?_, target.trans aim⟩
        · rw [Slot.next_id next]
          exact id
        · rw [Slot.line?_next next]
          exact line
  · show session.stage.choices = []
    rw [stage]
    exact (congrArg Narration.choices told).trans (h.choices waits)

theorem Addressed.countDown (h : p.Addressed) : p.countDown.Addressed := by
  unfold Player.countDown
  split
  next ms delaying =>
    have none := h.reveals_eq_nil (by simp [delaying])
    have choices := h.choices (by simp [delaying])
    split
    next => exact ⟨⟨h.message, .inl none⟩, fun _ => choices⟩
    next => exact ⟨⟨h.message, .inl none⟩, fun _ => choices⟩
  next => exact h

theorem Addressed.closeTick (h : p.Addressed) (closing : p.state = .closing) :
    p.closeTick.Addressed := by
  have none := h.reveals_eq_nil (by simp [closing])
  have choices := h.choices (by simp [closing])
  unfold Player.closeTick
  split
  next =>
    split
    next => exact h
    next => exact ⟨⟨h.message, .inl none⟩, fun _ => choices⟩
  next =>
    split
    next => exact ⟨⟨h.message, .inl none⟩, fun _ => choices⟩
    next => exact ⟨⟨h.message, .inl none⟩, fun _ => choices⟩
  next => exact h

/-- A tick keeps it: a reveal in progress goes on, or the run in the tick begins one. -/
theorem Addressed.tick (h : p.Addressed) : p.tick.Addressed := by
  have resumed : p.countDown.resume.Addressed := by
    unfold resume
    split
    next running => exact h.countDown.run running
    next => exact h.countDown
  have animated := resumed.animate
  unfold Player.tick
  dsimp only
  split
  next closing => exact animated.closeTick closing
  next => exact animated

/-! ## Answers -/

/-- Where nothing is revealed any more, a click leaves the line. -/
theorem Addressed.leave (h : p.Addressed) (waiting : p.state = .waitingForClick)
    (none : p.session.animator.reveals = []) : p.leave.Addressed := by
  have left : p.left.Addressed :=
    ⟨⟨h.message, .inl none⟩, fun _ => h.choices (by simp [waiting])⟩
  exact left.run rfl

/-- A click completes the line that is being revealed, and its reveal is over. -/
theorem Addressed.completeReveal (h : p.Addressed) (waiting : p.state = .waitingForClick)
    {id : TaskId} (revealed : p.reveal = some id) : (p.completeReveal id).Addressed := by
  have ceased : (p.session.animator.cancel id).reveals = [] := by
    rw [Animator.reveals_cancel]
    rcases h.reveals with none | revealing
    · rw [none]
      rfl
    · obtain ⟨n, s, -, -, one, same, -⟩ := revealing.line
      cases revealed.symm.trans same
      rw [one]
      simp
  exact ⟨⟨List.prefix_refl _, .inl ceased⟩, fun _ => h.choices (by simp [waiting])⟩

/-- A click keeps it, whether it completes a reveal or leaves the line. -/
theorem Addressed.advance (h : p.Addressed) : p.advance.Addressed := by
  unfold Player.advance
  split
  next waiting =>
    split
    next id revealed =>
      split
      next => exact h.completeReveal waiting revealed
      next ceased =>
        have idle : p.isRevealing = false := by simpa [isRevealing, revealed] using ceased
        exact h.leave waiting (h.reveals_eq_nil_of_idle idle)
    next unknown =>
      have idle : p.isRevealing = false := by simp [isRevealing, unknown]
      exact h.leave waiting (h.reveals_eq_nil_of_idle idle)
  next => exact h

theorem Addressed.choose (h : p.Addressed) (target : String) : (p.choose target).Addressed := by
  by_cases waiting : p.state = .waitingForChoice
  · have none := h.reveals_eq_nil (by simp [waiting])
    have chosen : (p.chosen target).Addressed := by
      unfold Player.chosen
      dsimp only
      split
      next => exact ⟨⟨h.message, .inl none⟩, fun _ => rfl⟩
      next => exact ⟨⟨h.message, .inl none⟩, fun _ => rfl⟩
    rw [choose_eq_chosen _ target waiting]
    exact chosen.run rfl
  · unfold Player.choose
    rwa [if_neg waiting]

theorem Addressed.chooseOption (h : p.Addressed) (index : Nat) :
    (p.chooseOption index).Addressed := by
  unfold Player.chooseOption
  split
  next =>
    split
    next o _ => exact h.choose o.target
    next => exact h
  next => exact h

/-! ## Beginnings and ends -/

theorem Addressed.dispose (h : p.Addressed) : p.dispose.Addressed := by
  obtain ⟨audio, loaded, released⟩ :=
    ((p.withAnimator p.session.animator.cancelAll).call .stop).releasePool_eq
  unfold Player.dispose
  dsimp only
  rw [released]
  exact ⟨⟨h.message, .inl rfl⟩, fun _ => rfl⟩

/-- After a start the message fits, and choices are on stage only if the player waits for one. -/
theorem start_addressed (p : Player) (scenes : Block) (index : Nat) :
    (p.start scenes index).Addressed := by
  have opened : (p.opened scenes index).Addressed := by
    have applied := Session.silent_replayAll p.fresh.setup p.fresh.session
      (scenes.take (min index (scenes.length - 1)))
    obtain ⟨audio, loaded, fresh⟩ := p.fresh_eq
    have message : p.fresh.session.MessageFits := by
      rw [fresh]
      exact List.nil_prefix
    have reveals : p.fresh.session.animator.reveals = [] := by
      rw [fresh]
      rfl
    have choices : p.fresh.session.stage.choices = [] := by
      rw [fresh]
      rfl
    exact ⟨⟨applied.message message, .inl (applied.reveals.trans reveals)⟩,
      fun _ => applied.choices.trans choices⟩
  exact opened.run rfl

/-- A restored session is addressed as the saved one was: what it waited at is presented
again. -/
theorem Addressed.restore (h : p.Addressed) (coherent : p.story.Coherent) (hroot : q.root = p.root)
    (hr : q.restore p.snapshot = .ok r) : r.Addressed := by
  obtain ⟨t, taken, resumed⟩ := restore_cases hr
  obtain ⟨⟨history, stage⟩, slots, -⟩ := takenUp_session taken
  have told := p.session.animator.finishAll_narration p.session.stage .empty
  have spoken : t.Spoken := by
    refine ⟨?_, .inl ?_⟩
    · unfold Session.MessageFits
      rw [stage]
      show (p.session.animator.finishAll p.session.stage).message.toList <+:
        (p.session.animator.finishAll p.session.stage).targetMessage.toList
      rw [show (p.session.animator.finishAll p.session.stage).targetMessage =
        p.session.stage.targetMessage from congrArg Narration.target told]
      exact Animator.finishAll_message_isPrefix h.message fun _ => h.line?_of_mem
    · unfold Animator.reveals
      rw [slots]
      rfl
  have choices : t.session.stage.choices = p.session.stage.choices := by
    rw [stage]
    exact congrArg Narration.choices told
  by_cases waiting : p.state = .waitingForChoice
  · -- The choice is presented again at once, and the player waits as the saved one did.
    obtain ⟨r', hr', story⟩ := restore_story coherent hroot (.inl (by simp [isWaiting, waiting]))
    obtain rfl : r' = r := Except.ok.inj (hr'.symm.trans hr)
    have waits : r'.state = .waitingForChoice :=
      (congrArg Story.state story).trans waiting
    refine ⟨?_, fun other => absurd waits other⟩
    rcases resumed with ⟨running, rfl⟩ | rfl
    · exact spoken.run running
    · exact spoken
  · have addressed : t.Addressed := ⟨spoken, fun _ => choices.trans (h.choices waiting)⟩
    rcases resumed with ⟨running, rfl⟩ | rfl
    · exact addressed.run running
    · exact addressed

/-- Every player a host can come to is addressed so. -/
theorem Reachable.addressed (h : p.Reachable) : p.Addressed := by
  induction h with
  | new setup audio => exact ⟨⟨List.prefix_refl _, .inl rfl⟩, fun _ => rfl⟩
  | start scenes index _ _ => exact start_addressed _ scenes index
  | tick _ ih => exact ih.tick
  | advance _ ih => exact ih.advance
  | choose target _ ih => exact ih.choose target
  | chooseOption index _ ih => exact ih.chooseOption index
  | dispose _ ih => exact ih.dispose
  | restore saved _ hroot hr ih _ => exact ih.restore saved.coherent hroot hr

/-- What a player waits for is the node at its cursor: for a click a line or a pause for one,
for a choice one that has options, and these are on stage. At no other time are there choices
on stage. A reveal is in progress only while the player waits at a line; then it is the only
one, the one the player knows, and reveals the line, which is the target of the message. The
message is always a beginning of its target. -/
theorem suspension_coherent (h : p.Reachable) :
    (p.state = .waitingForClick → ∃ n, p.frame.current = some n ∧
      (n.kind = .text ∨ n.kind = .waitForClick ∨ n.kind = .wait ∧ n.token = "@wait_click")) ∧
    (p.state = .waitingForChoice → ∃ n, p.frame.current = some n ∧ n.kind = .choicePrompt ∧
      n.options ≠ [] ∧ p.session.stage.choices = n.options) ∧
    (p.state ≠ .waitingForChoice → p.session.stage.choices = []) ∧
    (∀ s ∈ p.session.animator.slots, Animator.isReveal s.task → p.state = .waitingForClick ∧
      ∃ n, p.frame.current = some n ∧ n.kind = .text ∧
        p.session.animator.slots.filter (Animator.isReveal ·.task) = [s] ∧
          p.reveal = some s.id ∧ s.task.line? = some n.text.toList ∧
            p.session.stage.targetMessage = n.text) ∧
    p.session.stage.message.toList <+: p.session.stage.targetMessage.toList := by
  have addressed := h.addressed
  have coherent := h.coherent
  refine ⟨fun waiting => ?_, fun waiting => ?_, addressed.choices, fun s hs reveal => ?_,
    addressed.message⟩
  · obtain ⟨n, -, here, click, -⟩ := coherent.atClick waiting
    exact ⟨n, here, Node.kind_of_waitClick click⟩
  · obtain ⟨n, t, here, offer, told⟩ := coherent.atChoice waiting
    obtain ⟨kind, offers⟩ := Node.offers_of_waitChoice offer
    refine ⟨n, here, kind, offers, ?_⟩
    have choices : p.session.stage.choices = (Narration.present n t).choices :=
      congrArg Narration.choices told
    rw [choices, Narration.present, kind]
    dsimp only
    rw [if_neg (by simpa using offers)]
  · have member : s ∈ p.session.animator.reveals := List.mem_filter.mpr ⟨hs, reveal⟩
    -- There is at most one reveal, so the one in question is that of the player.
    rcases addressed.reveals with none | revealing
    · rw [none] at member
      contradiction
    · obtain ⟨n, r, here, kind, one, id, line, target⟩ := revealing.line
      have same : s = r := List.mem_singleton.mp (one ▸ member)
      subst same
      exact ⟨revealing.waiting, n, here, kind, one, id, line, target⟩

/-- After one tick the first letter of the outer line stands on stage. -/
theorem suspension_coherent_twoDeep :
    let p := ((new ⟨fun _ _ => none, {}, {}⟩ .accepting).start twoDeep 0).tick
    p.Reachable ∧ p.state = .waitingForClick ∧ p.session.stage.message = "o" ∧
      (∃ n, p.frame.current = some n ∧
        (n.kind = .text ∨ n.kind = .waitForClick ∨ n.kind = .wait ∧ n.token = "@wait_click")) ∧
      p.session.stage.choices = [] ∧
      p.session.stage.message.toList <+: p.session.stage.targetMessage.toList := by
  intro p
  have reachable : p.Reachable := ((Reachable.new _ _).start twoDeep 0).tick
  have waiting : p.state = .waitingForClick := by decide +kernel
  obtain ⟨click, -, choices, -, message⟩ := suspension_coherent reachable
  refine ⟨reachable, waiting, by decide +kernel, click waiting, choices ?_, message⟩
  rw [waiting]
  decide

end Player

end VisualNovel
