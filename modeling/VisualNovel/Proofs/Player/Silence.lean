import VisualNovel.Proofs.Player.Performance
import VisualNovel.Proofs.Stage.Reveals

/-!
# What says nothing

Two kinds of nodes turn to the reader: a line of dialogue, and a choice with options. Each
queues one cue that asks for an answer. All the others are silent: they record no line, ask
for nothing, and let the choices, the message and its reveal be. So is what the player itself
does around a node, and so are nodes that are applied instantly, save that these may put a
whole line in front of the reader.

> `Session.silent_present`: presenting a node is silent unless it is a line or a choice.

> `Session.speaks_present`, `Session.present_choice`: what a line does, and what a choice.

> `Session.silent_replayAll`: applying a block instantly is silent.

> `step_of_presenting_none`: a round that presents nothing moves the cursor, or ends the script.
-/

namespace VisualNovel

/-- Cues that a reader is to answer. -/
def Cue.prompts : Cue → Bool
  | .showText .. | .showChoices _ => true
  | _ => false

namespace Session

variable {s t u : Session} {setup : Setup} {instant : Bool} {n : Node}

/-- The message is a beginning of the line it is taken from. -/
def MessageFits (s : Session) : Prop :=
  s.stage.message.toList <+: s.stage.targetMessage.toList

/-- From one session to another no line is recorded, and no cue asks for an answer. -/
structure Quiet (s t : Session) : Prop where
  history : t.stage.history = s.stage.history
  cues : ∃ more, t.cues = s.cues ++ more ∧ ∀ c ∈ more, c.prompts = false

/-- Besides, the choices stay, the reveals go on as they are, and the message fits if it did. -/
structure Silent (s t : Session) : Prop extends Quiet s t where
  choices : t.stage.choices = s.stage.choices
  reveals : t.animator.reveals = s.animator.reveals
  message : s.MessageFits → t.MessageFits

/-- Where neither the record nor the queue has grown, nothing was said. -/
theorem Quiet.of_cues (history : t.stage.history = s.stage.history) (cues : t.cues = s.cues) :
    Quiet s t :=
  ⟨history, [], by rw [cues, List.append_nil], fun _ hc => absurd hc List.not_mem_nil⟩

/-- Being quiet lasts through what is quiet. -/
theorem Quiet.trans (h : Quiet s t) (h' : Quiet t u) : Quiet s u := by
  obtain ⟨more, queued, unasked⟩ := h.cues
  obtain ⟨more', queued', unasked'⟩ := h'.cues
  refine ⟨h'.history.trans h.history, more ++ more', ?_, ?_⟩
  · rw [queued', queued, List.append_assoc]
  · exact List.forall_mem_append.mpr ⟨unasked, unasked'⟩

namespace Silent

/-- Where stage, reveals and queue are as they were, nothing was said. -/
theorem of_stage (stage : t.stage = s.stage) (reveals : t.animator.reveals = s.animator.reveals)
    (cues : t.cues = s.cues) : Silent s t where
  toQuiet := .of_cues (by rw [stage]) cues
  choices := by rw [stage]
  reveals := reveals
  message := fun fits => by
    unfold MessageFits
    rwa [stage]

theorem refl (s : Session) : Silent s s := .of_stage rfl rfl rfl

/-- Being silent lasts through what is silent. -/
theorem trans (h : Silent s t) (h' : Silent t u) : Silent s u where
  toQuiet := h.toQuiet.trans h'.toQuiet
  choices := h'.choices.trans h.choices
  reveals := h'.reveals.trans h.reveals
  message := fun fits => h'.message (h.message fits)

/-- A cue that asks for no answer is silent. -/
theorem cue (s : Session) {c : Cue} (h : c.prompts = false) : Silent s (s.cue c) where
  history := rfl
  cues := ⟨[c], rfl, List.forall_mem_singleton.mpr h⟩
  choices := rfl
  reveals := rfl
  message := id

/-- Putting objects on stage, or changing them, says nothing. -/
theorem objects {objects : Table StageObject} {revision : Nat} {a : Animator}
    (reveals : a.reveals = s.animator.reveals) :
    Silent s { s with
      stage := { s.stage with objects := objects, revision := revision }, animator := a } :=
  ⟨.of_cues rfl rfl, rfl, reveals, id⟩

/-- Tasks may come and go in silence, as long as the reveals stay. -/
theorem animator {a : Animator} (reveals : a.reveals = s.animator.reveals) :
    Silent s { s with animator := a } := .of_stage rfl reveals rfl

end Silent

/-! ## Nodes that are silent -/

variable (setup instant n s)

/-- A change of the background is silent, at once or by a crossfade. -/
theorem silent_background (name time : String) :
    Silent s (presentBackground setup instant name time s) := by
  unfold presentBackground
  dsimp only
  split
  next => exact .refl s
  next =>
    split
    next => exact .refl s
    next =>
      split
      next => exact .animator (Animator.reveals_start _ (.crossfade ..) nofun _ _)
      next =>
        exact ⟨⟨rfl, [_], rfl, List.forall_mem_singleton.mpr rfl⟩, rfl, rfl, id⟩

/-- So is showing an object. -/
theorem silent_show : Silent s (presentShow setup instant n s) := by
  unfold presentShow
  dsimp only
  split
  next => exact .refl s
  next =>
    have kept := s.animator.reveals_cancelTarget (n.param 0)
    split
    next =>
      exact .objects ((Animator.reveals_start _ (.tween ..) nofun _ _).trans kept)
    next => exact .objects kept

/-- So is hiding one. -/
theorem silent_hide : Silent s (presentHide setup instant n s) := by
  unfold presentHide
  dsimp only
  split
  next => exact .animator (Animator.reveals_start _ (.fadeOut _) nofun _ _)
  next =>
    simp only [Change.removeObject_eq]
    exact .objects (s.animator.reveals_cancelTarget _)

/-- So is bringing a property to a value. -/
theorem silent_change (id : String) (time : TimeSpec) (tween : StageObject → Tween)
    (set : StageObject → StageObject) :
    Silent s (presentChange setup instant id time tween set s) := by
  unfold presentChange
  split
  next => exact .refl s
  next =>
    split
    next => exact .animator (Animator.reveals_start _ (.tween ..) nofun _ _)
    next => exact .objects rfl

/-- So is tinting. -/
theorem silent_tint : Silent s (presentTint setup instant n s) := by
  unfold presentTint
  split
  next => exact silent_change ..
  next => exact .objects rfl

theorem silent_objectShake : Silent s (presentObjectShake instant n s) := by
  unfold presentObjectShake
  dsimp only
  split
  next => exact .objects (Animator.reveals_start _ (.objectShake ..) nofun _ _)
  next => exact .refl s

theorem silent_screenShake : Silent s (presentScreenShake instant n s) := by
  unfold presentScreenShake
  dsimp only
  split
  next =>
    exact ⟨.of_cues rfl rfl, rfl, Animator.reveals_start _ (.screenShake _) nofun _ _, id⟩
  next => exact .refl s

/-- So is a flash. -/
theorem silent_flash : Silent s (presentFlash setup instant n s) := by
  unfold presentFlash
  dsimp only
  split
  next => exact ⟨.of_cues rfl rfl, rfl, Animator.reveals_start _ (.flash _) nofun _ _, id⟩
  next => exact ⟨.of_cues rfl rfl, rfl, rfl, id⟩

/-- So is a sound, found or not. -/
theorem silent_sound (kind : AssetKind) (name : String) (volume : Nat) :
    Silent s (playSound setup kind name volume s) := by
  unfold playSound
  split
  next => exact .of_stage rfl rfl rfl
  next => exact .refl s

variable {setup instant n s}

/-- A node that is neither a line nor a choice is silent. -/
theorem silent_present (text : n.kind ≠ .text) (choice : n.kind ≠ .choicePrompt) :
    Silent s (present setup instant n s).session := by
  unfold present
  cases kind : n.kind with
  | text => exact absurd kind text
  | choicePrompt => exact absurd kind choice
  | backgroundSet => exact silent_background ..
  | characterShow => exact silent_show ..
  | imageShow => exact silent_show ..
  | characterHide => exact silent_hide ..
  | imageHide => exact silent_hide ..
  | move => exact silent_change ..
  | scale => exact silent_change ..
  | rotate => exact silent_change ..
  | tint => exact silent_tint ..
  | objectShake => exact silent_objectShake ..
  | screenShake => exact silent_screenShake ..
  | screenFlash => exact silent_flash ..
  | musicPlay => exact silent_sound ..
  | soundEffect =>
    dsimp only
    split
    next => exact .refl s
    next => exact silent_sound ..
  | wait =>
    dsimp only
    rw [presentWait_session]
    exact .refl s
  | waitForClick =>
    dsimp only
    rw [presentWait_session]
    exact .refl s
  | musicStop => exact .of_stage rfl rfl rfl
  | variableSet => exact .of_stage rfl rfl rfl
  | _ => exact .refl s

/-! ## Lines and choices -/

/-- A line is recorded, asked an answer for, and revealed from its beginning. -/
structure Speaks (n : Node) (s : Session) (e : Effect) : Prop where
  next : e.next = .waitClick
  history : e.session.stage.history = s.stage.history ++ [⟨n.speaker, n.text⟩]
  choices : e.session.stage.choices = s.stage.choices
  cues : e.session.cues = s.cues ++ [.showText n.speaker n.text]
  target : e.session.stage.targetMessage = n.text
  message : e.session.stage.message = ""
  reveal : ∃ r : Slot, e.session.animator.reveals = [r] ∧ e.reveal = some r.id ∧
    r.task.line? = some n.text.toList

/-- A line that is presented speaks. -/
theorem speaks_present (kind : n.kind = .text) : Speaks n s (present setup false n s) := by
  obtain ⟨r, reveals, id, line⟩ := s.animator.reveals_reveal n.text setup.player.revealIntervalMs
  unfold present
  rw [kind]
  exact ⟨rfl, rfl, rfl, rfl, rfl, rfl, r, reveals, congrArg some id.symm, line⟩

/-- A choice with options puts them on stage and asks for one. -/
theorem present_choice (kind : n.kind = .choicePrompt) (offers : n.options ≠ []) :
    present setup false n s =
      { session := { s with stage := { s.stage with choices := n.options } }.cue
          (.showChoices (n.options.map ChoiceOption.text))
        next := .waitChoice } := by
  unfold present
  rw [kind]
  exact if_neg (by simpa using offers)

/-- A choice without options says nothing. -/
theorem present_choice_nil (kind : n.kind = .choicePrompt) (none : n.options = []) :
    present setup instant n s = { session := s } := by
  unfold present
  rw [kind]
  exact if_pos (by simp [none])

/-! ## Instant nodes -/

/-- A node that is applied instantly is silent, a line too: it is put in front of the reader
without being recorded or asked about. -/
theorem silent_present_instant : Silent s (present setup true n s).session := by
  by_cases text : n.kind = .text
  · unfold present
    rw [text]
    exact ⟨.of_cues rfl rfl, rfl, rfl, fun _ => List.prefix_refl _⟩
  · by_cases choice : n.kind = .choicePrompt
    · unfold present
      rw [choice]
      exact .refl s
    · exact silent_present text choice

mutual

/-- So is a conditional with the branch it picks. -/
theorem silent_replay (setup : Setup) (s : Session) (n : Node) : Silent s (replay setup s n) := by
  match n with
  | ⟨_, _, kind, _, _, _, _, _, _, thenBranch, elseBranch⟩ =>
    unfold Session.replay
    split
    next =>
      split
      next => exact silent_replayAll setup s thenBranch
      next => exact silent_replayAll setup s elseBranch
    next => exact silent_present_instant

/-- So is a block, node by node. -/
theorem silent_replayAll (setup : Setup) (s : Session) (b : Block) :
    Silent s (replayAll setup s b) := by
  match b with
  | [] =>
    unfold Session.replayAll
    exact .refl s
  | n :: ns =>
    unfold Session.replayAll
    exact (silent_replay setup s n).trans (silent_replayAll setup _ ns)

end

end Session

namespace Player

open Session (Silent Quiet)

variable {p : Player}

/-! ## Around a node -/

/-- Waiting queues what to load ahead and begins the opening fade, and leaves the stage
alone. -/
theorem suspend_cases (p : Player) (state : PlayerState) :
    Silent p.session (p.suspend state).session ∧
      (p.suspend state).session.stage = p.session.stage ∧
        (p.suspend state).state = state ∧ (p.suspend state).frame = p.frame ∧
          (p.suspend state).reveal = p.reveal := by
  have preloaded : ∀ q : Player, Silent q.session q.preload.session ∧
      q.preload.session.stage = q.session.stage ∧ q.preload.state = q.state ∧
        q.preload.frame = q.frame ∧ q.preload.reveal = q.reveal := by
    intro q
    unfold preload
    dsimp only
    split
    next => exact ⟨.refl _, rfl, rfl, rfl, rfl⟩
    next => exact ⟨.cue _ rfl, rfl, rfl, rfl, rfl⟩
  have faded : ∀ q : Player, Silent q.session q.startFadeIn.session ∧
      q.startFadeIn.session.stage = q.session.stage ∧ q.startFadeIn.state = q.state ∧
        q.startFadeIn.frame = q.frame ∧ q.startFadeIn.reveal = q.reveal := by
    intro q
    unfold startFadeIn
    split
    next =>
      exact ⟨.animator (Animator.reveals_start _ (.transition ..) nofun _ _), rfl, rfl, rfl, rfl⟩
    next => exact ⟨.refl _, rfl, rfl, rfl, rfl⟩
  obtain ⟨silent, stage, state', frame, reveal⟩ := preloaded { p with state := state }
  obtain ⟨silent', stage', state'', frame', reveal'⟩ := faded { p with state := state }.preload
  exact ⟨silent.trans silent', stage'.trans stage, state''.trans state', frame'.trans frame,
    reveal'.trans reveal⟩

/-- The player that has presented a node, before it goes on. -/
def presented (p : Player) (n : Node) : Player :=
  let effect := p.session.present p.setup false n
  { p with
    current := some n.id, session := effect.session, reveal := effect.reveal.or p.reveal }

/-- Going on from a node is presenting it and following what it asks for. -/
theorem dispatch_eq (p : Player) (n : Node) :
    p.dispatch n = (p.presented n).follow (p.session.present p.setup false n).next := rfl

/-- A line makes the player wait for a click. -/
theorem dispatch_of_text {n : Node} (kind : n.kind = .text) :
    p.dispatch n = ((p.presented n).suspend .waitingForClick, false) := by
  rw [dispatch_eq, (Session.speaks_present kind).next]
  rfl

/-- A choice with options makes the player wait for one. -/
theorem dispatch_of_choice {n : Node} (kind : n.kind = .choicePrompt) (offers : n.options ≠ []) :
    p.dispatch n = ((p.presented n).suspend .waitingForChoice, false) := by
  rw [dispatch_eq, Session.present_choice kind offers]
  rfl

/-- Going on after a node is silent. -/
theorem silent_follow (p : Player) (next : Next) : Silent p.session (p.follow next).1.session := by
  cases next with
  | proceed => exact .refl _
  | delay => exact .refl _
  | waitClick => exact (p.suspend_cases .waitingForClick).1
  | waitChoice => exact (p.suspend_cases .waitingForChoice).1

/-- The end of the script records nothing and asks for nothing. -/
theorem quiet_beginClose (p : Player) : Quiet p.session p.beginClose.session := by
  rw [beginClose_eq]
  have drawn : Quiet p.session p.drawn.session := by
    unfold Player.drawn
    cases p.fadeIn with
    | none => exact .of_cues rfl rfl
    | some id => exact .of_cues rfl rfl
  split
  next => exact drawn.trans (.of_cues rfl rfl)
  next => exact drawn.trans (.of_cues rfl rfl)

theorem current_of_presenting {f : Frame} {n : Node} (h : f.presenting = some n) :
    f.current = some n := (Option.filter_eq_some_iff.mp h).1

/-- A round that presents no node goes on with the same session, or it is the end of the
script. -/
theorem step_of_presenting_none (h : p.frame.presenting = none) :
    p.step.1.session = p.session ∧ p.step.2 = true ∨ p.step = (p.beginClose, false) := by
  unfold step
  cases here : p.frame.current with
  | none =>
    cases p.stack with
    | nil => exact .inr rfl
    | cons parent others => exact .inl ⟨rfl, rfl⟩
  | some n =>
    rw [Frame.presenting, here] at h
    dsimp only
    cases kind : n.kind with
    | label => exact .inl ⟨rfl, rfl⟩
    | goto =>
      dsimp only
      cases labelIndex p.root n.jumpTarget with
      | none => exact .inl ⟨rfl, rfl⟩
      | some i => exact .inl ⟨rfl, rfl⟩
    | conditional =>
      refine .inl ⟨?_, rfl⟩
      show (p.enterBranch n).session = p.session
      unfold enterBranch
      dsimp only
      split
      next => rfl
      next => rfl
    | _ => simp [Option.filter, kind] at h

/-! ## Runs and restored sessions -/

/-- What every round keeps, a run keeps. -/
theorem run_keeps {P : Player → Prop}
    (round : ∀ q, P q → q.state = .running → P q.step.1) (h : P p) (running : p.state = .running) :
    P p.run := by
  unfold run
  generalize max p.setup.player.stepsPerRun 1 = budget
  induction budget generalizing p with
  | zero => exact h
  | succ budget ih =>
    have first := round p h running
    have going := p.step_state
    unfold runFor
    generalize p.step = outcome at first going ⊢
    obtain ⟨q, goes⟩ := outcome
    cases goes with
    | true => exact ih first ((going rfl).trans running)
    | false => exact first

/-- A session that is taken up has the stage that was saved, but for the record and the effects
that settled, no task in progress and no cue queued. -/
theorem takenUp_session {q : Player} {s : Snapshot} (h : p.takenUp s = .ok q) :
    (∃ history, q.session.stage = { s.stage.settle with history := history }) ∧
      q.session.animator.slots = [] ∧ q.session.cues = [] := by
  unfold takenUp at h
  dsimp only [bind, Except.bind] at h
  split at h
  next => contradiction
  next =>
    split at h
    next => contradiction
    next =>
      cases h
      refine ⟨?_, rfl, rfl⟩
      dsimp only
      split
      next => exact ⟨_, rfl⟩
      next => exact ⟨_, rfl⟩

end Player

end VisualNovel
