import VisualNovel.Proofs.Player.Moves
import VisualNovel.Proofs.Player.Silence

/-!
# Every line is presented once

One call of a host may carry a player over many nodes, and still it asks for one answer at
most: a node that asks for one makes the player wait, and no round begins while it waits. The
line is recorded at the moment its cue is queued, so that the record and the cues never part.

`Session.Told` is which cues were queued that ask for an answer; `AsksOnce` says that there is
one at most, and where the player is then. Between the rounds of a run the player does not
wait, so nothing was asked for yet, and one more node may ask.

> `Session.told_present`: what a node asks for, and the line it records with it.

> `AsksOnce.run`: a run asks once.

> `Entry.asksOnce`, `asksOnce_start`, `asksOnce_restore`: so does every call of a host.

> `Logged.history`: the lines among the cues are the record, however often cues are taken.
-/

namespace VisualNovel

/-- The line that a cue presents. -/
def Cue.record? : Cue → Option DialogueRecord
  | .showText speaker text => some ⟨speaker, text⟩
  | _ => none

/-- How a player waits for the answer to a cue. -/
def Cue.wait? : Cue → Option PlayerState
  | .showText .. => some .waitingForClick
  | .showChoices _ => some .waitingForChoice
  | _ => none

/-- The cue by which a node asks for an answer. -/
def Node.prompt? (n : Node) : Option Cue :=
  match n.kind with
  | .text => some (.showText n.speaker n.text)
  | .choicePrompt =>
    if n.options.isEmpty then none else some (.showChoices (n.options.map ChoiceOption.text))
  | _ => none

/-- Lines and choices with options ask for an answer, and nothing else does. -/
theorem Node.prompt?_cases (n : Node) :
    n.kind = .text ∧ n.prompt? = some (.showText n.speaker n.text) ∨
    (n.kind = .choicePrompt ∧ n.options ≠ [] ∧
      n.prompt? = some (.showChoices (n.options.map ChoiceOption.text))) ∨
    (n.kind ≠ .text ∧ (n.kind = .choicePrompt → n.options = []) ∧ n.prompt? = none) := by
  unfold Node.prompt?
  cases kind : n.kind with
  | text => exact .inl ⟨rfl, rfl⟩
  | choicePrompt =>
    by_cases offers : n.options = []
    · exact .inr (.inr ⟨by simp, fun _ => offers, if_pos (by simp [offers])⟩)
    · exact .inr (.inl ⟨rfl, offers, if_neg (by simpa using offers)⟩)
  | _ => exact .inr (.inr ⟨by simp, by simp, rfl⟩)

namespace Session

variable {s t u : Session} {asked asked' : List Cue}

/-- From one session to another these are the cues queued that ask for an answer, and the
lines among them are recorded. -/
structure Told (asked : List Cue) (s t : Session) : Prop where
  history : t.stage.history = s.stage.history ++ asked.filterMap Cue.record?
  cues : ∃ more, t.cues = s.cues ++ more ∧ more.filter Cue.prompts = asked

/-- What is quiet asks for nothing. -/
theorem Quiet.told (h : Quiet s t) : Told [] s t := by
  obtain ⟨more, queued, unasked⟩ := h.cues
  refine ⟨?_, more, queued, ?_⟩
  · rw [List.filterMap_nil, List.append_nil]
    exact h.history
  · exact List.filter_eq_nil_iff.mpr fun c hc => by simp [unasked c hc]

/-- What was asked for adds up. -/
theorem Told.trans (h : Told asked s t) (h' : Told asked' t u) : Told (asked ++ asked') s u := by
  obtain ⟨more, queued, rfl⟩ := h.cues
  obtain ⟨more', queued', rfl⟩ := h'.cues
  refine ⟨?_, more ++ more', ?_, List.filter_append ..⟩
  · rw [h'.history, h.history, List.filterMap_append, List.append_assoc]
  · rw [queued', queued, List.append_assoc]

/-- What is quiet afterwards asks for nothing more. -/
theorem Told.quiet (h : Told asked s t) (quiet : Quiet t u) : Told asked s u :=
  asked.append_nil ▸ h.trans quiet.told

/-- Of all cues, only those that ask for an answer present lines. -/
theorem filterMap_record?_filter (cues : List Cue) :
    (cues.filter Cue.prompts).filterMap Cue.record? = cues.filterMap Cue.record? := by
  rw [List.filterMap_filter]
  refine List.filterMap_congr fun c _ => ?_
  cases c with
  | showText speaker text => rfl
  | _ => rfl

/-- The lines among the cues queued are the lines recorded. -/
theorem Told.lines (h : Told asked s t) : ∃ more, t.cues = s.cues ++ more ∧
    t.stage.history = s.stage.history ++ more.filterMap Cue.record? := by
  obtain ⟨more, queued, rfl⟩ := h.cues
  exact ⟨more, queued, by rw [h.history, filterMap_record?_filter]⟩

/-- A node asks what is its prompt, and records its line with it. -/
theorem told_present (setup : Setup) (n : Node) (s : Session) :
    Told n.prompt?.toList s (present setup false n s).session := by
  rcases n.prompt?_cases with ⟨kind, prompt⟩ | ⟨kind, offers, prompt⟩ | ⟨text, unoffered, prompt⟩
  · have speaks : Speaks n s (present setup false n s) := speaks_present kind
    rw [prompt]
    exact ⟨speaks.history, _, speaks.cues, rfl⟩
  · rw [prompt, present_choice kind offers]
    exact ⟨(List.append_nil _).symm, _, rfl, rfl⟩
  · rw [prompt]
    by_cases choice : n.kind = .choicePrompt
    · rw [present_choice_nil choice (unoffered choice)]
      exact (Silent.refl s).told
    · exact (silent_present text choice).told

end Session

namespace Player

open Session (Quiet Told)

variable {p q r : Player} {s : Session} {log : List Cue}

/-- The player waits at the node that presents the cue, for the answer to it. -/
def Awaits (p : Player) (c : Cue) : Prop :=
  ∃ n, p.frame.current = some n ∧ n.prompt? = some c ∧ c.wait? = some p.state

/-- Since a session the player has asked for one answer at most, and for that it waits. -/
def AsksOnce (s : Session) (p : Player) : Prop :=
  ∃ asked : Option Cue, Told asked.toList s p.session ∧ ∀ c ∈ asked, p.Awaits c

/-- A player that awaits an answer waits. -/
theorem Awaits.isWaiting {c : Cue} (h : p.Awaits c) : p.isWaiting = true := by
  obtain ⟨n, -, -, wait⟩ := h
  unfold Player.isWaiting
  cases c with
  | showText speaker text => simp [← Option.some.inj wait]
  | showChoices options => simp [← Option.some.inj wait]
  | _ => contradiction

namespace AsksOnce

/-- A player that asked for nothing has asked once at most. -/
theorem of_told (h : Told [] s p.session) : AsksOnce s p := ⟨none, h, nofun⟩

theorem of_quiet (h : Quiet s p.session) : AsksOnce s p := .of_told h.told

/-- A player that does not wait has asked for nothing. -/
theorem told (h : AsksOnce s p) (waits : p.isWaiting = false) : Told [] s p.session := by
  obtain ⟨asked, told, awaits⟩ := h
  cases asked with
  | none => exact told
  | some c =>
    have := (awaits c rfl).isWaiting
    rw [waits] at this
    contradiction

/-- One of the cues queued at most asks for an answer, and for that the player waits. -/
theorem queued (h : AsksOnce s p) : ∃ more, p.session.cues = s.cues ++ more ∧
    (more.filter Cue.prompts = [] ∨ ∃ c, more.filter Cue.prompts = [c] ∧ p.Awaits c) := by
  obtain ⟨asked, told, awaits⟩ := h
  obtain ⟨more, queued, asks⟩ := told.cues
  refine ⟨more, queued, ?_⟩
  rw [asks]
  cases asked with
  | none => exact .inl rfl
  | some c => exact .inr ⟨c, rfl, awaits c rfl⟩

/-- What is quiet, and lets the story be, keeps the player waiting. -/
theorem quiet (h : AsksOnce s p) (cues : Quiet p.session q.session) (story : q.story = p.story) :
    AsksOnce s q := by
  obtain ⟨asked, told, awaits⟩ := h
  refine ⟨asked, told.quiet cues, fun c hc => ?_⟩
  obtain ⟨n, here, prompt, wait⟩ := awaits c hc
  have frame : q.frame = p.frame := congrArg Story.frame story
  have state : q.state = p.state := congrArg Story.state story
  exact ⟨n, frame ▸ here, prompt, state ▸ wait⟩

end AsksOnce

/-! ## Runs -/

/-- A node that is presented queues its own prompt, if it has one, and no other. -/
theorem told_dispatch (p : Player) (n : Node) :
    Told n.prompt?.toList p.session (p.dispatch n).1.session := by
  rw [dispatch_eq]
  exact (Session.told_present p.setup n p.session).quiet ((p.presented n).silent_follow _).toQuiet

/-- A node that asks for an answer makes the player wait for it. -/
theorem awaits_dispatch {n : Node} {c : Cue} (here : p.frame.current = some n)
    (prompt : n.prompt? = some c) : (p.dispatch n).1.Awaits c := by
  rcases n.prompt?_cases with ⟨kind, asks⟩ | ⟨kind, offers, asks⟩ | ⟨-, -, asks⟩
  · obtain ⟨-, -, state, frame, -⟩ := (p.presented n).suspend_cases .waitingForClick
    obtain rfl := Option.some.inj (asks.symm.trans prompt)
    rw [dispatch_of_text kind]
    exact ⟨n, frame ▸ here, prompt, congrArg some state.symm⟩
  · obtain ⟨-, -, state, frame, -⟩ := (p.presented n).suspend_cases .waitingForChoice
    obtain rfl := Option.some.inj (asks.symm.trans prompt)
    rw [dispatch_of_choice kind offers]
    exact ⟨n, frame ▸ here, prompt, congrArg some state.symm⟩
  · rw [asks] at prompt
    contradiction

/-- A round begins with nothing asked for, and asks what the node it presents asks. -/
theorem AsksOnce.step (h : AsksOnce s p) (running : p.state = .running) : AsksOnce s p.step.1 := by
  have told : Told [] s p.session := h.told (by simp [isWaiting, running])
  cases presenting : p.frame.presenting with
  | some n =>
    rw [p.step_of_presenting presenting]
    exact ⟨n.prompt?, told.trans (p.told_dispatch n),
      fun c => awaits_dispatch (current_of_presenting presenting)⟩
  | none =>
    rcases step_of_presenting_none presenting with ⟨same, -⟩ | closing
    · exact .of_told (same ▸ told)
    · rw [closing]
      exact .of_told (told.quiet p.quiet_beginClose)

/-- A run asks once: the first round that asks for an answer is its last. -/
theorem AsksOnce.run (h : AsksOnce s p) (running : p.state = .running) : AsksOnce s p.run :=
  run_keeps (fun _ before => before.step) h running

/-- A run that begins after something quiet asks once. -/
theorem asksOnce_run (h : Quiet s p.session) (running : p.state = .running) : AsksOnce s p.run :=
  (AsksOnce.of_quiet h).run running

/-! ## Ticks -/

/-- No signal asks for an answer. -/
theorem quiet_handle (p : Player) (signal : Signal) :
    Quiet p.session (p.handle signal).session := by
  unfold handle
  cases signal with
  | letter index =>
    dsimp only
    split
    next => exact .of_cues rfl rfl
    next => exact .of_cues rfl rfl
  | backgroundSwapped name locator => exact (Session.Silent.cue p.session rfl).toQuiet

theorem quiet_foldl_handle (signals : List Signal) (p : Player) :
    Quiet p.session (signals.foldl handle p).session := by
  induction signals generalizing p with
  | nil => exact .of_cues rfl rfl
  | cons signal signals ih => exact (p.quiet_handle signal).trans (ih _)

/-- Tasks ask for nothing. -/
theorem quiet_animate (p : Player) : Quiet p.session p.animate.session := by
  have kept := p.session.animator.tick_narration p.setup.player.tickMs p.session.stage .empty
  unfold animate
  dsimp only
  refine Quiet.trans ?_ (quiet_foldl_handle ..)
  exact .of_cues (congrArg Narration.history kept) rfl

theorem countDown_session (p : Player) : p.countDown.session = p.session := by
  unfold countDown
  split
  next =>
    split
    next => rfl
    next => rfl
  next => rfl

/-- The ticks of the end ask for nothing. -/
theorem quiet_closeTick (p : Player) : Quiet p.session p.closeTick.session := by
  unfold closeTick
  split
  next =>
    split
    next => exact .of_cues rfl rfl
    next => exact .of_cues rfl rfl
  next =>
    split
    next => exact .of_cues rfl rfl
    next => exact (Session.Silent.cue p.session rfl).toQuiet
  next => exact .of_cues rfl rfl

/-- A tick asks once, with the run in it. -/
theorem asksOnce_tick (p : Player) : AsksOnce p.session p.tick := by
  have same : Quiet p.session p.countDown.session := .of_cues (by rw [countDown_session])
    (by rw [countDown_session])
  have resumed : AsksOnce p.session p.countDown.resume := by
    unfold resume
    split
    next running => exact asksOnce_run same running
    next => exact .of_quiet same
  have animated := resumed.quiet (quiet_animate _) (animate_story _)
  unfold tick
  dsimp only
  split
  next closing =>
    have told := animated.told (by simp [isWaiting, closing])
    exact .of_told (told.quiet (quiet_closeTick _))
  next => exact animated

/-! ## Answers and the end -/

/-- A click asks for nothing by itself, and the run after it asks once. -/
theorem asksOnce_advance (p : Player) : AsksOnce p.session p.advance := by
  rcases p.advance_cases with same | ⟨id, revealed⟩ | ⟨-, left⟩
  · rw [same]
    exact .of_quiet (.of_cues rfl rfl)
  · rw [revealed]
    exact .of_quiet (.of_cues rfl rfl)
  · rw [left]
    exact asksOnce_run (p := p.left) (.of_cues rfl rfl) rfl

/-- So it is with a target that is chosen. -/
theorem asksOnce_choose (p : Player) (target : String) :
    AsksOnce p.session (p.choose target) := by
  by_cases waiting : p.state = .waitingForChoice
  · rw [choose_eq_chosen _ target waiting]
    refine asksOnce_run ?_ rfl
    unfold Player.chosen
    dsimp only
    split
    next => exact .of_cues rfl rfl
    next => exact .of_cues rfl rfl
  · unfold choose
    rw [if_neg waiting]
    exact .of_quiet (.of_cues rfl rfl)

/-- So it is with an option that is chosen by its place. -/
theorem asksOnce_chooseOption (p : Player) (index : Nat) :
    AsksOnce p.session (p.chooseOption index) := by
  unfold chooseOption
  split
  next =>
    split
    next o _ => exact p.asksOnce_choose o.target
    next => exact .of_quiet (.of_cues rfl rfl)
  next => exact .of_quiet (.of_cues rfl rfl)

theorem asksOnce_dispose (p : Player) : AsksOnce p.session p.dispose := by
  obtain ⟨audio, loaded, released⟩ :=
    ((p.withAnimator p.session.animator.cancelAll).call .stop).releasePool_eq
  unfold dispose
  dsimp only
  rw [released]
  exact .of_quiet (.of_cues rfl rfl)

/-- What a host may ask of a player that plays a script. -/
inductive Entry (p : Player) : Player → Prop
  | tick : Entry p p.tick
  | advance : Entry p p.advance
  | choose (target : String) : Entry p (p.choose target)
  | chooseOption (index : Nat) : Entry p (p.chooseOption index)
  | dispose : Entry p p.dispose

/-- A call plays some nodes, or it disposes of the session. -/
theorem Entry.plays_or (h : Entry p q) : (∃ ns, Plays p ns q) ∨ q = p.dispose := by
  cases h with
  | tick => exact .inl p.plays_tick
  | advance => exact .inl p.plays_advance
  | choose target => exact .inl (p.plays_choose target)
  | chooseOption index => exact .inl (p.plays_chooseOption index)
  | dispose => exact .inr rfl

/-- Every call asks once. -/
theorem Entry.asksOnce (h : Entry p q) : AsksOnce p.session q := by
  cases h with
  | tick => exact p.asksOnce_tick
  | advance => exact p.asksOnce_advance
  | choose target => exact p.asksOnce_choose target
  | chooseOption index => exact p.asksOnce_chooseOption index
  | dispose => exact p.asksOnce_dispose

/-! ## Beginnings -/

/-- A start asks once, and knows of no cue and no line from before. -/
theorem asksOnce_start (p : Player) (scenes : Block) (index : Nat) :
    ∃ s, s.cues = [] ∧ s.stage.history = [] ∧ AsksOnce s (p.start scenes index) := by
  obtain ⟨audio, loaded, fresh⟩ := p.fresh_eq
  have applied := Session.silent_replayAll p.fresh.setup p.fresh.session
    (scenes.take (min index (scenes.length - 1)))
  have opened : Quiet p.fresh.session (p.opened scenes index).session :=
    applied.toQuiet.trans (.of_cues rfl rfl)
  refine ⟨p.fresh.session, ?_, ?_, asksOnce_run opened rfl⟩
  · rw [fresh]
  · rw [fresh]
    rfl

/-- A session that is restored asks once, and knows of no cue from before. -/
theorem asksOnce_restore {snapshot : Snapshot} (h : p.restore snapshot = .ok r) :
    ∃ s, s.cues = [] ∧ AsksOnce s r := by
  obtain ⟨q, taken, resumed⟩ := restore_cases h
  obtain ⟨-, -, cues⟩ := takenUp_session taken
  refine ⟨q.session, cues, ?_⟩
  rcases resumed with ⟨running, rfl⟩ | rfl
  · exact asksOnce_run (.of_cues rfl rfl) running
  · exact .of_quiet (.of_cues rfl rfl)

/-! ## The record -/

/-- The runs of a player, and the cues queued since the last start, taken or not. -/
inductive Logged : Player → List Cue → Prop
  | new (setup : Setup) (audio : AudioSink) : Logged (.new setup audio) []
  | start {p : Player} {log : List Cue} (scenes : Block) (index : Nat) :
      Logged p log → Logged (p.start scenes index) (p.start scenes index).session.cues
  | call {p q : Player} {log : List Cue} : Logged p log → Entry p q →
      Logged q (log ++ q.session.cues.drop p.session.cues.length)
  | takeCues {p : Player} {log : List Cue} : Logged p log → Logged p.takeCues.2 log

/-- The lines presented since the last start are the record. -/
theorem Logged.history (h : Logged p log) :
    log.filterMap Cue.record? = p.session.stage.history := by
  induction h with
  | new setup audio => rfl
  | @start p log scenes index =>
    obtain ⟨s, cues, history, asked, told, -⟩ := p.asksOnce_start scenes index
    obtain ⟨more, queued, recorded⟩ := told.lines
    rw [queued, recorded, cues, history, List.nil_append, List.nil_append]
  | @call p q log _ entry ih =>
    obtain ⟨asked, told, -⟩ := entry.asksOnce
    obtain ⟨more, queued, recorded⟩ := told.lines
    rw [queued, List.drop_left, List.filterMap_append, ih, recorded]
  | takeCues _ ih => exact ih

end Player

end VisualNovel
