import VisualNovel.Proofs.Player.Prompts

/-!
# What happens to a session

All that a node does to a session is a chain of acts of a few shapes, and so is all that
happens to it while a story plays: the acts of the nodes, the ticks of the tasks, and the few
things that the player does by itself. What each of these keeps lasts through a whole session,
so that an invariant of sessions is a matter of the shapes and not of the kinds of nodes.

> `Session.acts_present`, `Session.acts_replayAll`: nodes are acts, those that are applied
> instantly only acts that take no time and ask for nothing.

> `Player.Plays.events`: what is played are events.
-/

namespace VisualNovel

open Relation

/-- Whether a task only takes off an effect that was put on with it: a shake or a flash. -/
def Task.lifts : Task → Bool
  | .objectShake .. | .screenShake _ | .flash _ => true
  | _ => false

/-- The background that a cue is about. -/
def Cue.background? : Cue → Option (Option String × Option String)
  | .backgroundChanged name locator => some (name, locator)
  | _ => none

namespace Session

theorem timed_of_and {instant b : Bool} (h : (!instant && b) = true) : ¬instant := by
  cases instant with
  | false => exact Bool.false_ne_true
  | true => contradiction

/-! ## Acts -/

section

variable (setup : Setup) (instant : Bool) (s : Session)

/-- One thing that a node does. Tasks are started, lines recorded and answers asked for only
by nodes that are presented, not by those that are applied instantly. -/
inductive Act : Session → Prop
  | text (visible : Bool) (speaker message target : String) :
      Act { s with stage := { s.stage with
        messageVisible := visible, speaker := speaker, message := message
        targetMessage := target } }
  | record (timed : ¬instant) (line : DialogueRecord) :
      Act { s with stage := { s.stage with history := s.stage.history ++ [line] } }
  | offer (timed : ¬instant) (options : List ChoiceOption) :
      Act { s with stage := { s.stage with choices := options } }
  | notice (timed : ¬instant) (c : Cue) (other : c.background? = none) : Act (s.cue c)
  | background (name : String) (locator : Option String) :
      Act ({ s with stage := s.stage.setBackground name locator }.cue
        (.backgroundChanged (if name = "_" then none else some name) locator))
  | start (timed : ¬instant) (task : Task) (calm : task.lifts = false) (steps : Nat)
      (easing : Easing) :
      Act { s with animator := ((s.animator.drop task.contends).push task steps easing).1 }
  /-- An object that is put on stage is rid of the tasks of its name. -/
  | put (o : StageObject) (calm : o.shaking = false) :
      Act { s with
        stage := s.stage.insertObject o, animator := s.animator.cancelTarget o.name }
  | take (name : String) :
      Act { s with
        stage := s.stage.removeObject name, animator := s.animator.cancelTarget name }
  | set (name : String) (v : Property) :
      Act { s with stage := s.stage.modifyObject name (·.set v) }
  | shakeObject (timed : ¬instant) (name : String) (amount : Single) (ms : Nat) :
      Act { s with
        stage := s.stage.modifyObject name fun o =>
          { o with shaking := true, shakeAmount := amount }
        animator := (s.animator.shakeObject name ms).1 }
  | shakeScreen (timed : ¬instant) (amount : Single) (ms : Nat) :
      Act { s with
        stage := { s.stage with screenShake := amount }
        animator := (s.animator.shakeScreen ms).1 }
  | flash (timed : ¬instant) (color : Color) (steps : Nat) (easing : Easing) :
      Act { s with
        stage := { s.stage with overlay := color }
        animator := (s.animator.flash color steps easing).1 }
  | unflash : Act { s with stage := { s.stage with overlay := .transparent } }
  | music {name locator : String} (found : setup.assets .music name = some locator) :
      Act (s.call (.play locator setup.sound.musicVolume))
  | sound (timed : ¬instant) {name locator : String}
      (found : setup.assets .sound name = some locator) :
      Act (s.call (.play locator setup.sound.soundVolume))
  | silence : Act (s.call .stop)
  | assign (vars : Variables) : Act { s with vars := vars }

end

/-- Acts one after the other. -/
abbrev Acts (setup : Setup) (instant : Bool) : Session → Session → Prop :=
  ReflTransGen (Act setup instant)

variable (setup : Setup) (instant : Bool) (n : Node) (s : Session)

/-- A line sets the text, and when it is presented is recorded, revealed and told. -/
theorem acts_text : Acts setup instant s (presentText setup instant n s).session := by
  unfold presentText
  dsimp only
  split
  next => exact .single (.text true n.speaker n.text n.text)
  next timed =>
    exact .head (.text true n.speaker "" n.text) (.head (.record timed ⟨n.speaker, n.text⟩)
      (.head (.start timed (.reveal ..) rfl 1 .linear)
        (.single (.notice timed (.showText n.speaker n.text) rfl))))

/-- A background comes at once with its cue, or begins a crossfade. -/
theorem acts_background (name time : String) :
    Acts setup instant s (presentBackground setup instant name time s) := by
  unfold presentBackground
  dsimp only
  split
  next => exact .refl
  next =>
    split
    next => exact .refl
    next locator _ =>
      split
      next timed =>
        exact .single (.start (timed_of_and timed) (.crossfade name locator false) rfl _ .linear)
      next => exact .single (.background name locator)

/-- An object is put on stage as it is, or from nothing and then faded in. -/
theorem acts_show : Acts setup instant s (presentShow setup instant n s) := by
  unfold presentShow
  dsimp only
  split
  next => exact .refl
  next =>
    split
    next fading =>
      exact .head (.put _ (by rfl))
        (.single (.start (timed_of_and fading) (.tween (n.param 0) (.alpha 0 1)) rfl _ _))
    next => exact .single (.put _ (by rfl))

/-- An object is taken off at once, or begins to fade out. -/
theorem acts_hide : Acts setup instant s (presentHide setup instant n s) := by
  unfold presentHide
  dsimp only
  split
  next timed => exact .single (.start (timed_of_and timed) (.fadeOut (n.param 0)) rfl _ _)
  next => exact .single (.take _)

/-- A property is set at once, or a task is started that carries it there. -/
theorem acts_change (id : String) (time : TimeSpec) (tween : StageObject → Tween)
    (v : Property) : Acts setup instant s (presentChange setup instant id time tween (·.set v) s) := by
  unfold presentChange
  split
  next => exact .refl
  next o _ =>
    split
    next timed =>
      exact .single (.start (timed_of_and timed) (.tween id (tween o)) rfl _ _)
    next => exact .single (.set id v)

/-- A tint is set or taken off at once, or a task is started that carries it there. -/
theorem acts_tint : Acts setup instant s (presentTint setup instant n s) := by
  unfold presentTint
  split
  next c _ => exact acts_change _ _ s (n.param 0) _ _ (.tint (some c))
  next => exact .single (.set (n.param 0) (.tint none))

/-- Only an object shake that is presented does anything. -/
theorem acts_objectShake : Acts setup instant s (presentObjectShake instant n s) := by
  unfold presentObjectShake
  dsimp only
  split
  next timed => exact .single (.shakeObject (timed_of_and timed) _ _ _)
  next => exact .refl

/-- Only a screen shake that is presented does anything. -/
theorem acts_screenShake : Acts setup instant s (presentScreenShake instant n s) := by
  unfold presentScreenShake
  dsimp only
  split
  next timed => exact .single (.shakeScreen (timed_of_and timed) _ _)
  next => exact .refl

/-- A flash lays its colour over the stage and begins to take it off, or only takes off what lies
there. -/
theorem acts_flash : Acts setup instant s (presentFlash setup instant n s) := by
  unfold presentFlash
  dsimp only
  split
  next timed => exact .single (.flash (timed_of_and timed) _ _ _)
  next => exact .single .unflash

/-- Music is called for if there is such a file, also by a node that is applied instantly. -/
theorem acts_music (name : String) :
    Acts setup instant s (playSound setup .music name setup.sound.musicVolume s) := by
  unfold playSound
  split
  next locator found => exact .single (.music found)
  next => exact .refl

/-- A sound is called for if there is such a file, by nodes that are presented. -/
theorem acts_sound (timed : ¬instant) (name : String) :
    Acts setup instant s (playSound setup .sound name setup.sound.soundVolume s) := by
  unfold playSound
  split
  next locator found => exact .single (.sound timed found)
  next => exact .refl

/-- A choice offers its options only when it is presented. -/
theorem acts_choice : Acts setup instant s (presentChoice instant n s).session := by
  unfold presentChoice
  split
  next => exact .refl
  next asks =>
    have timed : ¬instant := by rintro rfl; simp at asks
    exact (ReflTransGen.single (.offer timed n.options)).tail
      (.notice timed (.showChoices _) rfl)

/-- What a node does is a chain of acts. -/
theorem acts_present : Acts setup instant s (present setup instant n s).session := by
  unfold present
  cases n.kind with
  | text => exact acts_text ..
  | backgroundSet => exact acts_background ..
  | characterShow => exact acts_show ..
  | imageShow => exact acts_show ..
  | characterHide => exact acts_hide ..
  | imageHide => exact acts_hide ..
  | move => exact acts_change _ _ s (n.param 0) _ _ (.position _ _)
  | scale => exact acts_change _ _ s (n.param 0) _ _ (.scale _ _)
  | rotate => exact acts_change _ _ s (n.param 0) _ _ (.rotation _)
  | tint => exact acts_tint ..
  | objectShake => exact acts_objectShake ..
  | screenShake => exact acts_screenShake ..
  | screenFlash => exact acts_flash ..
  | musicPlay => exact acts_music ..
  | soundEffect =>
    dsimp only
    split
    next => exact .refl
    next timed => exact acts_sound _ _ s timed _
  | musicStop => exact .single .silence
  | wait =>
    dsimp only
    rw [presentWait_session]
  | waitForClick =>
    dsimp only
    rw [presentWait_session]
  | choicePrompt => exact acts_choice ..
  | variableSet => exact .single (.assign _)
  | _ => exact .refl

mutual

/-- Applying a node instantly is a chain of acts that take no time, along its branches. -/
theorem acts_replay (setup : Setup) (s : Session) (n : Node) :
    Acts setup true s (replay setup s n) := by
  match n with
  | ⟨_, _, kind, _, _, _, _, _, _, thenBranch, elseBranch⟩ =>
    unfold Session.replay
    split
    next =>
      split
      next => exact acts_replayAll setup s thenBranch
      next => exact acts_replayAll setup s elseBranch
    next => exact acts_present setup true _ s

/-- Applying a block instantly is a chain of acts that take no time. -/
theorem acts_replayAll (setup : Setup) (s : Session) (b : Block) :
    Acts setup true s (replayAll setup s b) := by
  match b with
  | [] =>
    unfold Session.replayAll
    exact .refl
  | n :: ns =>
    unfold Session.replayAll
    exact (acts_replay setup s n).trans (acts_replayAll setup _ ns)

end

/-! ## Events -/

/-- One thing that happens to a session while its story plays. -/
inductive Event (setup : Setup) : Session → Session → Prop
  | act {instant : Bool} {s t : Session} (h : Act setup instant s t) : Event setup s t
  | tick (p : Player) (same : p.setup = setup) : Event setup p.session p.animate.session
  /-- The player ends a reveal, or a fade of the cover. -/
  | cancel {s : Session} {part : Change.Part} {id : TaskId} (tags : s.animator.Tags part id)
      (own : part = .message ∨ part = .cover) :
      Event setup s { s with animator := s.animator.cancel id }
  | cover (s : Session) (alpha : Single) :
      Event setup s { s with stage := { s.stage with transitionAlpha := alpha } }
  | clear (s : Session) : Event setup s { s with stage := s.stage.clearPresentation }
  | taken (s : Session) : Event setup s { s with cues := [] }

/-- Events one after the other. -/
abbrev Events (setup : Setup) : Session → Session → Prop := ReflTransGen (Event setup)

variable {setup}

/-- Acts of either sort are events. -/
theorem Acts.events {instant : Bool} {s t : Session} (h : Acts setup instant s t) : Events setup s t :=
  ReflTransGen.mono (fun _ _ => Event.act) _ _ h

theorem Events.of_act {s t : Session} (h : Act setup false s t) : Events setup s t :=
  .single (.act h)

end Session

namespace Player

open Session (Event Events)

variable {p q : Player} {ns : List Node}

/-- A wait begins with the cue of its preloads and with a fade-in, if either is due. -/
theorem events_suspend (p : Player) (state : PlayerState) :
    Events p.setup p.session (p.suspend state).session := by
  have preloaded (q : Player) : Events q.setup q.session q.preload.session := by
    unfold preload
    dsimp only
    split
    next => exact .refl
    next => exact .of_act (.notice Bool.false_ne_true _ rfl)
  have setup : ({ p with state := state } : Player).preload.setup = p.setup := by
    unfold preload
    dsimp only
    split
    next => rfl
    next => rfl
  have faded (q : Player) : Events q.setup q.session q.startFadeIn.session := by
    unfold startFadeIn
    split
    next => exact .of_act (.start Bool.false_ne_true (.transition _ _) rfl _ .linear)
    next => exact .refl
  have before := preloaded { p with state := state }
  have after := faded ({ p with state := state } : Player).preload
  rw [setup] at after
  exact before.trans after

/-- A handler is its acts, and then a wait if it asks for one. -/
theorem events_dispatch (p : Player) (n : Node) :
    Events p.setup p.session (p.dispatch n).1.session := by
  have presented : Events p.setup p.session (p.presented n).session :=
    (Session.acts_present p.setup false n p.session).events
  rw [dispatch_eq]
  cases (p.session.present p.setup false n).next with
  | proceed => exact presented
  | waitClick => exact presented.trans ((p.presented n).events_suspend _)
  | waitChoice => exact presented.trans ((p.presented n).events_suspend _)
  | delay ms => exact presented

/-- At the end the music stops and the stage is cleared. -/
theorem events_finishClose (p : Player) : Events p.setup p.session p.finishClose.session :=
  (Events.of_act .silence).tail (.clear _)

/-- The fade-in that is ended belongs to the player. -/
theorem Tagged.events_drawn (h : p.Tagged) : Events p.setup p.session p.drawn.session := by
  unfold Player.drawn
  cases opening : p.fadeIn with
  | none => exact .refl
  | some id => exact .single (.cancel (h.fadeIn id opening) (.inr rfl))

theorem drawn_setup (p : Player) : p.drawn.setup = p.setup := by
  unfold drawn
  cases p.fadeIn with
  | none => rfl
  | some id => rfl

/-- Closing ends the fade-in and covers the stage, or finishes at once. -/
theorem Tagged.events_beginClose (h : p.Tagged) :
    Events p.setup p.session p.beginClose.session := by
  rw [beginClose_eq]
  split
  next =>
    exact h.events_drawn.trans
      (Events.of_act (.start Bool.false_ne_true (.transition _ _) rfl _ .linear))
  next =>
    have finished := p.drawn.events_finishClose
    rw [drawn_setup] at finished
    exact h.events_drawn.trans finished

/-- A round is made of events. -/
theorem Tagged.events_step (h : p.Tagged) : Events p.setup p.session p.step.1.session := by
  cases presenting : p.frame.presenting with
  | some n =>
    rw [p.step_of_presenting presenting]
    exact p.events_dispatch n
  | none =>
    rcases step_of_presenting_none presenting with ⟨same, -⟩ | closing
    · rw [same]
    · rw [closing]
      exact h.events_beginClose

/-- What the closing pause does: it covers the stage in full and finishes, or sends the last
cue. -/
theorem events_closeTick (p : Player) : Events p.setup p.session p.closeTick.session := by
  unfold closeTick
  split
  next =>
    split
    next => exact .refl
    next =>
      let covered := p.withStage { p.session.stage with transitionAlpha := 1 }
      exact (ReflTransGen.single (.cover p.session 1)).trans covered.events_finishClose
  next =>
    split
    next => exact .refl
    next => exact .of_act (.notice Bool.false_ne_true .finished rfl)
  next => exact .refl

/-- What happens between the rounds is made of events. -/
theorem Tagged.events_beat (h : p.Tagged) (beat : Beat p q) :
    Events p.setup p.session q.session := by
  cases beat with
  | countDown =>
    rw [countDown_session]
  | animate => exact .single (.tick p rfl)
  | closeTick _ => exact p.events_closeTick
  | @completeReveal id _ revealing =>
    exact (ReflTransGen.single (.cancel (h.reveal id revealing) (.inl rfl))).trans
      (Events.of_act (.text p.session.stage.messageVisible p.session.stage.speaker
        p.session.stage.targetMessage p.session.stage.targetMessage))
  | left _ => exact .refl
  | chosen target _ =>
    unfold Player.chosen
    dsimp only
    split
    next => exact .of_act (.offer Bool.false_ne_true [])
    next => exact .of_act (.offer Bool.false_ne_true [])
  | takeCues => exact .single (.taken p.session)

/-- A script begins with events, on an empty stage. -/
theorem opened_events (p : Player) (scenes : Block) (index : Nat) :
    Events p.setup p.fresh.session (p.opened scenes index).session := by
  have setup : p.fresh.setup = p.setup := loadPool_setup _
  have applied := (Session.acts_replayAll p.fresh.setup p.fresh.session
    (scenes.take (min index (scenes.length - 1)))).events
  rw [← setup]
  exact applied.tail (.cover _ 1)

/-- What is played is made of events. -/
theorem Plays.events (h : Plays p ns q) (tagged : p.Tagged) :
    Events p.setup p.session q.session := by
  induction h with
  | refl => exact .refl
  | @round ns q before running ih =>
    have performed := before.performs tagged
    have round := performed.tagged.events_step
    rw [performed.setup] at round
    exact ih.trans round
  | @beat ns q r before beat ih =>
    have performed := before.performs tagged
    have between := performed.tagged.events_beat beat
    rw [performed.setup] at between
    exact ih.trans between

end Player

end VisualNovel
