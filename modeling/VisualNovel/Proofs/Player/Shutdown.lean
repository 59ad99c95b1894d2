import VisualNovel.Proofs.Player.Ending
import VisualNovel.Proofs.Player.Events
import VisualNovel.Proofs.Player.Performance
import VisualNovel.Proofs.Player.Signals
import VisualNovel.Proofs.Stage.Schedule

/-!
# Sessions end in time

The end of a session takes a fade to black, unless the stage is covered already, and a pause. Both
are counted by ticks, the fade by its task and the pause by the player, and other tasks may go on
meanwhile. If the task of the fade could be lost, or counted in another rhythm than the ticks of
the player, the session would end late or never.

`Player.Winding` says how many ticks of the fade and of the pause are left. A tick takes one off,
of the fade first; with the last one of the fade the sounds are stopped, and with the last one of
the pause the end is told.

> `Animator.Issued.due_transition`, `Animator.Due.next`, `Animator.Due.last`: the task of the fade
> is in progress as long as it is due.

> `Player.Winding.tick`: what a tick of the end does.

> `Player.closes_on_time`: when a session is over, whatever else happens meanwhile.
-/

namespace VisualNovel

namespace Animator

variable {a : Animator} {dt n : Nat} {id : TaskId}

/-- A task is in progress under this identity, and takes so many ticks still. -/
structure Due (a : Animator) (dt : Nat) (id : TaskId) (n : Nat) : Prop where
  running : a.isRunning id = true
  clock : ∀ s ∈ a.slots, s.id = id → s.Timely ∧ s.remaining dt = n

/-- A fade of the cover takes as many ticks as it is given, and at least one. -/
theorem Issued.due_transition (h : a.Issued) (start finish : Single) (steps dt : Nat) :
    (a.transition start finish steps).1.Due dt (a.transition start finish steps).2
      (max steps 1) where
  running := by
    refine List.any_eq_true.mpr ⟨_, List.mem_append_right _ (List.mem_singleton_self _), ?_⟩
    exact beq_self_eq_true _
  clock := by
    intro s hs same
    rcases List.mem_append.mp hs with old | new
    · -- The identity of the fade is a new one.
      have issued := h s (List.mem_filter.mp old).1
      rw [same] at issued
      exact absurd issued (Nat.not_succ_le_self a.lastId)
    · cases List.mem_singleton.mp new
      exact ⟨Nat.lt_of_lt_of_le Nat.zero_lt_one (Nat.le_max_right steps 1), rfl⟩

/-- A tick takes one off the ticks that a task takes still, as long as it is not the last. -/
theorem Due.next (h : a.Due dt id (n + 2)) (hdt : 0 < dt) (stage : Stage) :
    (a.tick dt stage).1.Due dt id (n + 1) where
  running := by
    obtain ⟨s, hs, same⟩ := List.any_eq_true.mp h.running
    obtain ⟨timely, remaining⟩ := h.clock s hs (beq_iff_eq.mp same)
    cases going : s.next dt with
    | none =>
      have last := Slot.remaining_of_last timely hdt going
      omega
    | some t =>
      refine List.any_eq_true.mpr ⟨t, ?_, by rwa [Slot.next_id going]⟩
      rw [tick_slots]
      exact List.mem_filterMap.mpr ⟨s, hs, going⟩
  clock := forall_tick fun s hs t going same => by
    obtain ⟨timely, remaining⟩ := h.clock s hs ((Slot.next_id going).symm.trans same)
    have less := Slot.remaining_of_next timely hdt going
    exact ⟨timely.next going, by omega⟩

/-- A task that takes one tick still is over after it. -/
theorem Due.last (h : a.Due dt id 1) (hdt : 0 < dt) (stage : Stage) :
    (a.tick dt stage).1.isRunning id = false := by
  refine List.any_eq_false.mpr (forall_tick fun s hs t going same => ?_)
  obtain ⟨timely, remaining⟩ :=
    h.clock s hs ((Slot.next_id going).symm.trans (beq_iff_eq.mp same))
  have less := Slot.remaining_of_next timely hdt going
  have left : 0 < t.remaining dt := Slot.remaining_pos (timely.next going)
  omega

end Animator

namespace Player

variable {p q r : Player} {f g stops ends stops' ends' : Nat}

/-! ## What a host notices -/

/-- Between two players the sink was told so often to stop, and the end was told so often. -/
structure Between (stops ends : Nat) (p q : Player) : Prop where
  setup : q.setup = p.setup
  calls : ∃ calls, q.session.audio.calls = p.session.audio.calls ++ calls ∧
    calls.count .stop = stops
  cues : ∃ more, q.session.cues = p.session.cues ++ more ∧ more.count .finished = ends

namespace Between

/-- Where neither the calls nor the cues have grown nothing was stopped and nothing told. -/
theorem of_still (setup : q.setup = p.setup) (audio : q.session.audio = p.session.audio)
    (cues : q.session.cues = p.session.cues) : Between 0 0 p q :=
  ⟨setup, ⟨[], by rw [audio, List.append_nil], rfl⟩, ⟨[], by rw [cues, List.append_nil], rfl⟩⟩

/-- What was stopped and told adds up. -/
theorem trans (h : Between stops ends p q) (h' : Between stops' ends' q r) :
    Between (stops + stops') (ends + ends') p r := by
  obtain ⟨calls, called, stopped⟩ := h.calls
  obtain ⟨calls', called', stopped'⟩ := h'.calls
  obtain ⟨more, queued, ended⟩ := h.cues
  obtain ⟨more', queued', ended'⟩ := h'.cues
  refine ⟨h'.setup.trans h.setup, ⟨calls ++ calls', ?_, ?_⟩, ⟨more ++ more', ?_, ?_⟩⟩
  · rw [called', called, List.append_assoc]
  · rw [List.count_append, stopped, stopped']
  · rw [queued', queued, List.append_assoc]
  · rw [List.count_append, ended, ended']

/-- At the end of the fade the sounds are stopped, once. -/
theorem finishClose (p : Player) : Between 1 0 p p.finishClose :=
  ⟨rfl, ⟨[.stop], rfl, rfl⟩, ⟨[], (List.append_nil _).symm, rfl⟩⟩

/-- Tasks sound letters and change backgrounds; they neither stop the sounds nor tell the end. -/
theorem animate (p : Player) : Between 0 0 p p.animate := by
  refine ⟨p.animate_setup, ?_, ?_⟩
  · rw [p.animate_session, AudioSink.callAll_calls]
    refine ⟨_, rfl, List.count_eq_zero.mpr fun stops => ?_⟩
    obtain ⟨signal, -, call⟩ := List.mem_filterMap.mp stops
    cases signal with
    | letter index => exact nomatch (Option.ite_none_right_eq_some.mp call).2
    | backgroundSwapped => contradiction
  · rw [p.animate_session]
    refine ⟨_, rfl, List.count_eq_zero.mpr fun ends => ?_⟩
    obtain ⟨signal, -, cue⟩ := List.mem_filterMap.mp ends
    cases signal with
    | letter index => contradiction
    | backgroundSwapped => exact nomatch cue

end Between

/-! ## The ticks that are left -/

/-- How many ticks a pause takes. -/
def pauseTicks (setup : Setup) (ms : Nat) : Nat := max 1 (ms ⌈/⌉ setup.player.tickMs)

/-- A pause takes a tick at least, also one of no length. -/
theorem pauseTicks_pos (setup : Setup) (ms : Nat) : 0 < pauseTicks setup ms :=
  Nat.lt_of_lt_of_le Nat.zero_lt_one (Nat.le_max_left 1 _)

/-- A pause that is no longer than a tick takes one. -/
theorem pauseTicks_of_le {setup : Setup} {ms : Nat} (ticks : 0 < setup.player.tickMs)
    (short : ms ≤ setup.player.tickMs) : pauseTicks setup ms = 1 := by
  have one : ms ⌈/⌉ setup.player.tickMs ≤ 1 := by
    rw [ceilDiv_le_iff_le_smul ticks, smul_eq_mul, Nat.mul_one]
    exact short
  exact Nat.max_eq_left one

/-- A longer pause takes one more than it does without a tick of it. -/
theorem pauseTicks_of_lt {setup : Setup} {ms : Nat} (ticks : 0 < setup.player.tickMs)
    (long : setup.player.tickMs < ms) :
    pauseTicks setup ms = pauseTicks setup (ms - setup.player.tickMs) + 1 := by
  have less := Slot.ceilDiv_sub (Nat.zero_lt_of_lt long) ticks
  have left := Slot.ceilDiv_pos (Nat.sub_pos_of_lt long) ticks
  unfold pauseTicks
  omega

/-- A session that ends has so many ticks left of its fade and of its pause. -/
inductive Winding (p : Player) : Nat → Nat → Prop
  | fading {id : TaskId} {n : Nat} (closing : p.state = .closing)
      (fade : p.closing = some (.fading id))
      (due : p.session.animator.Due p.setup.player.tickMs id (n + 1)) :
      Winding p (n + 1) (pauseTicks p.setup p.setup.player.closeGraceMs)
  | grace {remaining : Nat} (closing : p.state = .closing)
      (pause : p.closing = some (.grace remaining)) : Winding p 0 (pauseTicks p.setup remaining)
  | ended (terminated : p.state = .terminated) : Winding p 0 0

/-! ## One tick -/

/-- Once the task of the fade is over, the sounds are stopped and the pause begins. -/
theorem winding_faded {id : TaskId} (closing : p.state = .closing)
    (fade : p.closing = some (.fading id)) (done : p.session.animator.isRunning id = false) :
    p.closeTick.Winding 0 (pauseTicks p.setup p.setup.player.closeGraceMs) ∧
      Between 1 0 p p.closeTick := by
  unfold closeTick
  rw [fade]
  dsimp only
  rw [done, if_neg Bool.false_ne_true]
  exact ⟨.grace closing rfl, rfl, ⟨[.stop], rfl, rfl⟩, ⟨[], (List.append_nil _).symm, rfl⟩⟩

/-- A tick of a longer pause takes one tick off it, and is not noticed. -/
theorem winding_paused {remaining : Nat} (closing : p.state = .closing)
    (pause : p.closing = some (.grace remaining)) (long : p.setup.player.tickMs < remaining) :
    p.closeTick.Winding 0 (pauseTicks p.setup (remaining - p.setup.player.tickMs)) ∧
      Between 0 0 p p.closeTick := by
  unfold closeTick
  rw [pause]
  dsimp only
  rw [if_pos long]
  exact ⟨.grace closing rfl, .of_still rfl rfl rfl⟩

/-- With the last tick of the pause the end is told. -/
theorem winding_ended {remaining : Nat} (pause : p.closing = some (.grace remaining))
    (short : remaining ≤ p.setup.player.tickMs) :
    p.closeTick.Winding 0 0 ∧ Between 0 1 p p.closeTick := by
  unfold closeTick
  rw [pause]
  dsimp only
  rw [if_neg (Nat.not_lt.mpr short)]
  exact ⟨.ended rfl, rfl, ⟨[], (List.append_nil _).symm, rfl⟩, ⟨[.finished], rfl, rfl⟩⟩

/-- A tick of a session that is closing is one of the tasks and one of the end. -/
theorem tick_of_closing (closing : p.state = .closing) : p.tick = p.animate.closeTick :=
  (Over.tick_eq (.inl closing)).trans (if_pos closing)

/-- A tick of the tasks leaves the clock of the end as it is. -/
theorem animate_closing (p : Player) : p.animate.closing = p.closing := by
  obtain ⟨session, hp, -, -⟩ := p.animate_eq
  rw [hp]

/-- The animator after a tick of the tasks. -/
theorem animate_animator (p : Player) : p.animate.session.animator =
    (p.session.animator.tick p.setup.player.tickMs p.session.stage).1 := by
  rw [p.animate_session]

/-- A tick takes one off what is left, of the fade first. With the last tick of the fade the
sounds are stopped, and with the last of the pause the end is told. -/
theorem Winding.tick (h : p.Winding f g) (ticks : 0 < p.setup.player.tickMs) :
    p.tick.Winding (f - 1) (if f = 0 then g - 1 else g) ∧
      Between (if f = 1 then 1 else 0) (if f = 0 ∧ g = 1 then 1 else 0) p p.tick := by
  have animated := Between.animate p
  have setup : p.animate.setup = p.setup := p.animate_setup
  cases h with
  | @fading id n closing fade due =>
    have closing' : p.animate.state = .closing := p.animate_state.trans closing
    have fade' : p.animate.closing = some (.fading id) := p.animate_closing.trans fade
    rw [tick_of_closing closing]
    cases n with
    | zero =>
      have done : p.animate.session.animator.isRunning id = false := by
        rw [p.animate_animator]
        exact due.last ticks _
      obtain ⟨winding, between⟩ := winding_faded closing' fade' done
      rw [setup] at winding
      exact ⟨winding, animated.trans between⟩
    | succ n =>
      -- The task is still in progress after the tick, so the clock of the end waits for it.
      have due' := due.next ticks p.session.stage
      rw [← p.animate_animator, ← setup] at due'
      have still : p.animate.closeTick = p.animate := by
        unfold closeTick
        rw [fade']
        exact if_pos due'.running
      rw [still, if_neg (Nat.succ_ne_zero _), if_neg (by omega), ← setup]
      exact ⟨.fading closing' fade' due', by simpa using animated⟩
  | @grace remaining closing pause =>
    have closing' : p.animate.state = .closing := p.animate_state.trans closing
    have pause' : p.animate.closing = some (.grace remaining) := p.animate_closing.trans pause
    rw [tick_of_closing closing]
    -- From here on the player counts by itself, whatever tasks are left.
    by_cases long : p.setup.player.tickMs < remaining
    · obtain ⟨winding, between⟩ := winding_paused closing' pause' (setup.symm ▸ long)
      have left : pauseTicks p.setup (remaining - p.setup.player.tickMs) ≠ 0 :=
        Nat.ne_of_gt (pauseTicks_pos _ _)
      rw [setup] at winding
      rw [pauseTicks_of_lt ticks long]
      simp only [Nat.add_eq_right, left, and_false, if_false, if_true, Nat.add_sub_cancel]
      exact ⟨winding, animated.trans between⟩
    · have short : remaining ≤ p.setup.player.tickMs := Nat.le_of_not_lt long
      obtain ⟨winding, between⟩ := winding_ended pause' (setup.symm ▸ short)
      rw [pauseTicks_of_le ticks short]
      exact ⟨winding, animated.trans between⟩
  | ended terminated =>
    have ticked : p.tick = p.animate :=
      (Over.tick_eq (.inr terminated)).trans (if_neg (by rw [terminated]; nofun))
    rw [ticked]
    exact ⟨.ended (p.animate_state.trans terminated), animated⟩

/-! ## Where a session ends -/

/-- How many ticks the fade takes at the end of a session, none if the stage is covered. -/
def fadeTicks (p : Player) : Nat :=
  if p.session.stage.transitionAlpha.less 1 then max 1 p.setup.player.transitionSteps else 0

/-- A session that begins to close has its fade and its pause before it; the sounds are stopped
at once if there is no fade. -/
theorem Tagged.winding_beginClose (h : p.Tagged) :
    p.beginClose.Winding p.fadeTicks (pauseTicks p.setup p.setup.player.closeGraceMs) ∧
      Between (if p.fadeTicks = 0 then 1 else 0) 0 p p.beginClose := by
  have setup : p.drawn.setup = p.setup := p.drawn_setup
  have drawn : Between 0 0 p p.drawn := by
    unfold Player.drawn
    cases p.fadeIn with
    | none => exact .of_still rfl rfl rfl
    | some id => exact .of_still rfl rfl rfl
  rw [beginClose_eq]
  unfold fadeTicks
  split
  next =>
    rw [← setup]
    have due := h.drawn_tagged.issued.due_transition p.session.stage.transitionAlpha 1
      p.drawn.setup.player.transitionSteps p.drawn.setup.player.tickMs
    have positive : max 1 p.drawn.setup.player.transitionSteps ≠ 0 := by omega
    obtain ⟨n, steps⟩ := Nat.exists_eq_succ_of_ne_zero positive
    rw [Nat.max_comm, steps] at due
    rw [if_neg positive, steps]
    exact ⟨.fading rfl rfl due, setup, drawn.calls, drawn.cues⟩
  next =>
    have finished := Between.finishClose p.drawn
    rw [if_pos rfl, ← setup]
    exact ⟨.grace rfl rfl, drawn.trans finished⟩

/-- A round in which a session comes to close finds the script at its end. -/
theorem step_of_over (running : p.state = .running) (closed : p.step.1.Over) :
    p.step = (p.beginClose, false) := by
  cases presenting : p.frame.presenting with
  | some n =>
    rw [p.step_of_presenting presenting, dispatch_eq] at closed
    cases next : (p.session.present p.setup false n).next with
    | proceed =>
      rw [next] at closed
      exact absurd running (closed.ne nofun nofun)
    | waitClick =>
      rw [next] at closed
      have waits := ((p.presented n).suspend_cases .waitingForClick).2.2.1
      exact absurd waits (closed.ne nofun nofun)
    | waitChoice =>
      rw [next] at closed
      have waits := ((p.presented n).suspend_cases .waitingForChoice).2.2.1
      exact absurd waits (closed.ne nofun nofun)
    | delay ms =>
      rw [next] at closed
      exact closed.elim nofun nofun
  | none =>
    rcases step_of_presenting_none presenting with ⟨-, goesOn⟩ | closes
    · exact absurd ((step_state p goesOn).trans running) (closed.ne nofun nofun)
    · exact closes

/-- From a player on the script is played up to the round that finds its end. -/
structure EndsAt (p r : Player) : Prop where
  plays : ∃ ms, Plays p ms r
  running : r.state = .running
  closing : r.step.1.state = .closing

/-- Playing on the way to the end does not change where it is. -/
theorem EndsAt.of_plays {ns : List Node} (h : Plays p ns q) (ends : EndsAt q r) : EndsAt p r :=
  ⟨ends.plays.imp' (ns ++ ·) fun _ => h.trans, ends.running, ends.closing⟩

/-- A run after which the session is closing ends with the round that finds the end. -/
theorem run_of_over (running : p.state = .running) (closed : p.run.Over) :
    ∃ r, EndsAt p r ∧ p.run = r.step.1 := by
  unfold run at closed ⊢
  generalize max p.setup.player.stepsPerRun 1 = budget at closed ⊢
  induction budget generalizing p with
  -- A run that its budget stops is still running, and so not at the end.
  | zero => exact absurd running (closed.ne nofun nofun)
  | succ budget ih =>
    unfold runFor at closed ⊢
    cases round : p.step with
    | mk q goes =>
      rw [round] at closed
      cases goes with
      | true =>
        have going : q.state = .running := by
          have same := p.step_state (by rw [round])
          rw [round] at same
          exact same.trans running
        obtain ⟨r, ends, same⟩ := ih going closed
        have first : Plays p p.frame.presenting.toList q := by
          have played := Plays.of_round running
          rwa [round] at played
        exact ⟨r, ends.of_plays first, same⟩
      | false =>
        have closes := step_of_over running (by rw [round]; exact closed)
        exact ⟨p, ⟨⟨[], .refl⟩, running, by rw [closes]; exact p.beginClose_state⟩, by rw [round]⟩

/-! ## Calls of a host -/

/-- What a host may ask besides ticks, an answer of its reader: to a line or to a choice. -/
inductive Responds (p : Player) : Player → Prop
  | advance : Responds p p.advance
  | choose (target : String) : Responds p (p.choose target)
  | chooseOption (index : Nat) : Responds p (p.chooseOption index)

/-- A call of a host in which a session begins or goes on, and how many ticks it counts. -/
inductive Turn : Nat → Player → Player → Prop
  | start (p : Player) (scenes : Block) (index : Nat) :
      Turn 0 (p.opened scenes index) (p.start scenes index)
  | restore {p b q : Player} {s : Snapshot} (taken : p.takenUp s = .ok b)
      (restored : p.restore s = .ok q) : Turn 0 b q
  | responds {p q : Player} (responds : Responds p q) : Turn 0 p q
  | tick (p : Player) : Turn 1 p p.tick

/-- If a session comes to close in a tick, a round of its loop finds the end and the tick goes on
from there. -/
theorem tick_of_over (open' : ¬p.Over) (closed : p.tick.Over) :
    ∃ r, EndsAt p r ∧ p.tick = r.step.1.tick := by
  have ended : p.countDown.resume.Over := by
    unfold tick at closed
    dsimp only at closed
    split at closed
    next closing => exact .inl ((animate_state _).symm.trans closing)
    next =>
      unfold Over at closed
      rwa [animate_state] at closed
  have running : p.countDown.state = .running := by
    by_contra waits
    rw [resume, if_neg waits] at ended
    exact open' (over_of_countDown ended)
  have resumed : p.countDown.resume = p.countDown.run := if_pos running
  obtain ⟨r, ends, same⟩ := run_of_over running (resumed ▸ ended)
  refine ⟨r, ends.of_plays (.of_beat (.countDown p)), ?_⟩
  rw [tick_of_closing ends.closing, ← same, ← resumed]
  unfold tick
  dsimp only
  rw [animate_state, resumed, same, if_pos ends.closing]

/-- If it comes to close in an answer, the round that finds the end is the last. -/
theorem Responds.closes (h : Responds p q) (open' : ¬p.Over) (closed : q.Over) :
    ∃ r, EndsAt p r ∧ q = r.step.1 := by
  -- An answer is a beat and then a run, and only the run can come to the end.
  have after {b : Player} (beat : Beat p b) (running : b.state = .running) (closed : b.run.Over) :
      ∃ r, EndsAt p r ∧ b.run = r.step.1 := by
    obtain ⟨r, ends, same⟩ := run_of_over running closed
    exact ⟨r, ends.of_plays (.of_beat beat), same⟩
  have chooses (target : String) (closed : (p.choose target).Over) :
      ∃ r, EndsAt p r ∧ p.choose target = r.step.1 := by
    by_cases waiting : p.state = .waitingForChoice
    · rw [choose_eq_chosen _ target waiting] at closed ⊢
      exact after (.chosen target waiting) rfl closed
    · unfold Player.choose at closed
      rw [if_neg waiting] at closed
      exact absurd closed open'
  cases h with
  | advance =>
    rcases p.advance_cases with same | ⟨id, revealed⟩ | ⟨waiting, left⟩
    · exact absurd (same ▸ closed) open'
    · rw [revealed] at closed
      exact absurd closed open'
    · rw [left] at closed ⊢
      exact after (.left waiting) rfl closed
  | choose target => exact chooses target closed
  | chooseOption index =>
    unfold Player.chooseOption at closed ⊢
    split at closed
    next waiting =>
      rw [if_pos waiting]
      split at closed
      next o here => exact chooses o.target closed
      next => exact absurd closed open'
    next => exact absurd closed open'

/-- However a session comes to close, it does so in a round of its loop that finds the end. -/
theorem Turn.closes {n : Nat} (h : Turn n p q) (open' : ¬p.Over) (closed : q.Over) :
    ∃ r, EndsAt p r ∧ (n = 0 ∧ q = r.step.1 ∨ n = 1 ∧ q = r.step.1.tick) := by
  cases h with
  | start p scenes index =>
    obtain ⟨r, ends, same⟩ := run_of_over rfl closed
    exact ⟨r, ends, .inl ⟨rfl, same⟩⟩
  | restore taken restored =>
    rw [restore_eq, taken] at restored
    obtain rfl := Except.ok.inj restored
    dsimp only at closed ⊢
    split at closed
    next going =>
      obtain ⟨r, ends, same⟩ := run_of_over going closed
      exact ⟨r, ends, .inl ⟨rfl, (if_pos going).trans same⟩⟩
    next => exact absurd closed open'
  | responds responds =>
    obtain ⟨r, ends, same⟩ := responds.closes open' closed
    exact ⟨r, ends, .inl ⟨rfl, same⟩⟩
  | tick =>
    obtain ⟨r, ends, same⟩ := tick_of_over open' closed
    exact ⟨r, ends, .inr ⟨rfl, same⟩⟩

/-! ## On time -/

variable {b s : Player} {ns : List Node} {k n : Nat} {log : List Cue}

/-- From a player on so many ticks pass, with answers in between, and these cues are queued
meanwhile, whether they are taken or not. -/
inductive Elapses (p : Player) : Nat → List Cue → Player → Prop
  | refl : Elapses p 0 [] p
  | tick {k : Nat} {log : List Cue} {q : Player} (before : Elapses p k log q) :
      Elapses p (k + 1) (log ++ q.tick.session.cues.drop q.session.cues.length) q.tick
  | responds {k : Nat} {log : List Cue} {q r : Player} (before : Elapses p k log q)
      (responds : Responds q r) :
      Elapses p k (log ++ r.session.cues.drop q.session.cues.length) r
  | takeCues {k : Nat} {log : List Cue} {q : Player} (before : Elapses p k log q) :
      Elapses p k log q.takeCues.2

/-- A session is terminated when no ticks are left, and closing before. -/
theorem Winding.state (h : p.Winding f g) :
    p.state = if f + g = 0 then .terminated else .closing := by
  cases h with
  | fading closing => rw [if_neg (by omega), closing]
  | @grace remaining closing =>
    have positive := pauseTicks_pos p.setup remaining
    rw [if_neg (by omega), closing]
  | ended terminated => rw [if_pos rfl, terminated]

theorem Winding.is_over (h : p.Winding f g) : p.Over := by
  unfold Over
  rw [h.state]
  split
  next => exact .inr rfl
  next => exact .inl rfl

/-- Taking the cues takes no ticks. -/
theorem Winding.takeCues (h : p.Winding f g) : p.takeCues.2.Winding f g := by
  cases h with
  | fading closing fade due => exact .fading closing fade due
  | grace closing pause => exact .grace closing pause
  | ended terminated => exact .ended terminated

/-- Answers to a session that is over are ignored. -/
theorem Responds.eq_of_over (h : Responds p q) (closed : p.Over) : q = p := by
  cases h with
  | advance => exact closed.advance_eq
  | choose target => exact closed.choose_eq target
  | chooseOption index => exact closed.chooseOption_eq index

/-- So many ticks take as many off what is left, whatever answers come in between. -/
theorem Elapses.winding (h : Elapses q k log s) (winding : q.Winding f g)
    (ticks : 0 < q.setup.player.tickMs) :
    s.Winding (f - k) (g - (k - f)) ∧ s.setup = q.setup ∧
      (∃ calls, s.session.audio.calls = q.session.audio.calls ++ calls ∧
        calls.count .stop = if 0 < f ∧ f ≤ k then 1 else 0) ∧
      log.count .finished = if 0 < g ∧ f + g ≤ k then 1 else 0 := by
  induction h with
  | refl =>
    refine ⟨?_, rfl, ⟨[], (List.append_nil _).symm, ?_⟩, ?_⟩
    · rwa [Nat.sub_zero, Nat.zero_sub, Nat.sub_zero]
    · rw [if_neg (by omega)]
      rfl
    · rw [if_neg (by omega)]
      rfl
  | @tick k log s _ ih =>
    obtain ⟨left, setup, ⟨calls, called, stopped⟩, ended⟩ := ih
    obtain ⟨left', between⟩ := left.tick (setup.symm ▸ ticks)
    obtain ⟨calls', called', stopped'⟩ := between.calls
    obtain ⟨more, queued, ended'⟩ := between.cues
    refine ⟨?_, between.setup.trans setup, ⟨calls ++ calls', ?_, ?_⟩, ?_⟩
    · have fade : f - k - 1 = f - (k + 1) := rfl
      have pause : (if f - k = 0 then g - (k - f) - 1 else g - (k - f)) = g - (k + 1 - f) := by
        split
        next => omega
        next => omega
      rwa [fade, pause] at left'
    · rw [called', called, List.append_assoc]
    · rw [List.count_append, stopped, stopped']
      split_ifs <;> omega
    · rw [queued, List.drop_left, List.count_append, ended, ended']
      split_ifs <;> omega
  | responds _ responds ih =>
    -- A session that closes takes no answers.
    obtain ⟨left, rest⟩ := ih
    obtain rfl := responds.eq_of_over left.is_over
    rw [List.drop_length, List.append_nil]
    exact ⟨left, rest⟩
  | takeCues _ ih =>
    obtain ⟨left, rest⟩ := ih
    exact ⟨left.takeCues, rest⟩

/-- The player left by the call in which a session comes to close. -/
theorem Turn.winding (h : Turn n p q) (open' : ¬p.Over) (closed : q.Over) (tagged : p.Tagged)
    (ticks : 0 < p.setup.player.tickMs) :
    ∃ r, EndsAt p r ∧ r.setup = p.setup ∧
      let pause := pauseTicks r.setup r.setup.player.closeGraceMs
      q.Winding (r.fadeTicks - n) (pause - (n - r.fadeTicks)) ∧
        Between (if n < r.fadeTicks then 0 else 1)
          (if n < r.fadeTicks + pause then 0 else 1) r q := by
  obtain ⟨r, ends, entered⟩ := h.closes open' closed
  obtain ⟨ms, plays⟩ := ends.plays
  have performed := plays.performs tagged
  obtain ⟨winding, between⟩ := performed.tagged.winding_beginClose
  have positive := pauseTicks_pos r.setup r.setup.player.closeGraceMs
  have closes : r.step.1 = r.beginClose := by rw [step_of_over ends.running (.inl ends.closing)]
  refine ⟨r, ends, performed.setup, ?_⟩
  extract_lets pause
  rw [closes] at entered
  -- A tick that enters the end is also its first one.
  rcases entered with ⟨rfl, rfl⟩ | ⟨rfl, rfl⟩
  · have stops : (if 0 < r.fadeTicks then 0 else 1) = if r.fadeTicks = 0 then 1 else 0 := by
      split_ifs <;> omega
    have ends : (if 0 < r.fadeTicks + pause then 0 else 1) = 0 := if_pos (by omega)
    rw [stops, ends, Nat.zero_sub]
    exact ⟨winding, between⟩
  · obtain ⟨winding', between'⟩ :=
      winding.tick (between.setup.symm ▸ performed.setup.symm ▸ ticks)
    have left : (if r.fadeTicks = 0 then pause - 1 else pause) = pause - (1 - r.fadeTicks) := by
      split_ifs <;> omega
    have stops : (if r.fadeTicks = 0 then 1 else 0) + (if r.fadeTicks = 1 then 1 else 0) =
        if 1 < r.fadeTicks then 0 else 1 := by
      split_ifs <;> omega
    have ends : 0 + (if r.fadeTicks = 0 ∧ pause = 1 then 1 else 0) =
        if 1 < r.fadeTicks + pause then 0 else 1 := by
      split_ifs <;> omega
    rw [← left, ← stops, ← ends]
    exact ⟨winding', between.trans between'⟩

/-- A session that comes to close, in whatever call, is over exactly when its fade and its pause
have taken their ticks, counted from that call on, if it is a tick, or else from the next tick on.
Neither the tasks in progress nor answers change that. Up to then the sounds are stopped once, with
the last tick of the fade, or at once if the stage is covered already; and the end is told once,
when the session is over. -/
theorem closes_on_time (begun : Begun b) (plays : Plays b ns p) (turn : Turn n p q)
    (open' : ¬p.Over) (closed : q.Over) (ticks : 1 ≤ p.setup.player.tickMs) :
    ∃ ms r, Plays p ms r ∧ r.state = .running ∧ r.step.1.state = .closing ∧ r.setup = p.setup ∧
      let fade := r.fadeTicks
      let span := fade + pauseTicks r.setup r.setup.player.closeGraceMs
      ∃ more, q.session.cues = r.session.cues ++ more ∧ ∀ k log s, Elapses q k log s →
        s.state = (if n + k < span then .closing else .terminated) ∧
        (∃ calls, s.session.audio.calls = r.session.audio.calls ++ calls ∧
          calls.count .stop = if n + k < fade then 0 else 1) ∧
        (more ++ log).count .finished = if n + k < span then 0 else 1 := by
  have tagged := (plays.performs begun.tagged).tagged
  obtain ⟨r, ⟨⟨ms, plays⟩, running, closing⟩, setup, winding, between⟩ :=
    turn.winding open' closed tagged ticks
  obtain ⟨calls, called, stopped⟩ := between.calls
  obtain ⟨more, queued, ended⟩ := between.cues
  have positive := pauseTicks_pos r.setup r.setup.player.closeGraceMs
  refine ⟨ms, r, plays, running, closing, setup, more, queued, fun k log s elapses => ?_⟩
  have sameSetup : q.setup = p.setup := between.setup.trans setup
  obtain ⟨left, -, ⟨calls', called', stopped'⟩, ended'⟩ :=
    elapses.winding winding (sameSetup.symm ▸ ticks)
  refine ⟨?_, ⟨calls ++ calls', ?_, ?_⟩, ?_⟩
  · rw [left.state]
    -- No tick is left exactly if both the fade and the pause have passed.
    by_cases early : n + k < r.fadeTicks + pauseTicks r.setup r.setup.player.closeGraceMs
    · rw [if_pos early, if_neg (by omega)]
    · rw [if_neg early, if_pos (by omega)]
  · rw [called', called, List.append_assoc]
  · rw [List.count_append, stopped, stopped']
    split_ifs <;> omega
  · rw [List.count_append, ended, ended']
    split_ifs <;> omega

/-- Ticks alone pass as well. -/
theorem elapses_ticks (k : Nat) (p : Player) : ∃ log, Elapses p k log (tick^[k] p) := by
  induction k with
  | zero => exact ⟨[], .refl⟩
  | succ k ih =>
    obtain ⟨log, elapses⟩ := ih
    rw [Function.iterate_succ_apply']
    exact ⟨_, elapses.tick⟩

/-- A line that waits while the background changes, slowly. -/
def sunset : Block := [.directive "@bg" ["sunset", "2000"], .dialogue "" "only"]

/-- Left by a click in the middle of the change, the session takes 20 ticks to fade and 32 to
pause, and the change goes on. -/
theorem closes_on_time_sunset :
    let p := tick^[25] ((new ⟨.any, {}, {}⟩ .accepting).start sunset 0)
    let q := p.advance
    (q.session.animator.slots.any fun s => Animator.isCrossfade s.task) ∧ q.state = .closing ∧
      ∃ r : Player, r.step.1.state = .closing ∧
        r.fadeTicks + pauseTicks r.setup r.setup.player.closeGraceMs = 52 ∧
        (tick^[52] q).state = .terminated ∧
        ∃ calls, (tick^[52] q).session.audio.calls = r.session.audio.calls ++ calls ∧
          calls.count .stop = 1 := by
  intro p q
  let begun := (new ⟨.any, {}, {}⟩ .accepting).start sunset 0
  obtain ⟨still, waits⟩ := plays_ticks 25 begun (by decide +kernel)
  have plays : Plays ((new ⟨.any, {}, {}⟩ .accepting).opened sunset 0) _ p :=
    (plays_run rfl).trans still
  have open' : ¬p.Over := by
    intro closed
    have line : p.state = .waitingForClick := by decide +kernel
    exact absurd line (closed.ne nofun nofun)
  have closing : q.state = .closing := by decide +kernel
  have early : (tick^[51] q).state = .closing := by decide +kernel
  have late : (tick^[52] q).state = .terminated := by decide +kernel
  obtain ⟨ms, r, -, -, closes, -, more, -, onTime⟩ :=
    closes_on_time (.opened _ _ _) plays (.responds .advance) open' (.inl closing)
      (show 1 ≤ p.setup.player.tickMs by decide +kernel)
  obtain ⟨log, elapses⟩ := elapses_ticks 51 q
  obtain ⟨log', elapses'⟩ := elapses_ticks 52 q
  obtain ⟨before, -⟩ := onTime 51 log _ elapses
  obtain ⟨after, ⟨calls, called, stopped⟩, -⟩ := onTime 52 log' _ elapses'
  rw [early] at before
  rw [late] at after
  have span : r.fadeTicks + pauseTicks r.setup r.setup.player.closeGraceMs = 52 := by
    split_ifs at before after
    omega
  have positive := pauseTicks_pos r.setup r.setup.player.closeGraceMs
  have faded : ¬0 + 52 < r.fadeTicks := by omega
  rw [if_neg faded] at stopped
  exact ⟨by decide +kernel, closing, r, closes, span, late, calls, called, stopped⟩

end Player

end VisualNovel
