import Mathlib.Logic.Function.Iterate
import VisualNovel.Proofs.Player.Playthrough

/-!
# What a player has presented

A session goes on by rounds of the loop and by what happens between them. `Plays` is any
number of these together with the nodes they presented, in their order, so that it can be
said of a moment what was presented before it.

> `plays_run`: a run of the loop plays the nodes it presents.

> `plays_tick`, `plays_advance`, `plays_choose`, `plays_chooseOption`: so does every call
> of a host.
-/

namespace VisualNovel.Player

variable {p q r : Player} {ns ms : List Node}

/-- What happens to a player between the rounds of its loop. -/
inductive Beat : Player → Player → Prop
  | countDown (p : Player) : Beat p p.countDown
  | animate (p : Player) : Beat p p.animate
  | closeTick {p : Player} (closing : p.state = .closing) : Beat p p.closeTick
  | completeReveal {p : Player} {id : TaskId} (waiting : p.state = .waitingForClick)
      (revealing : p.reveal = some id) : Beat p (p.completeReveal id)
  | left {p : Player} (waiting : p.state = .waitingForClick) : Beat p p.left
  | chosen {p : Player} (target : String) (waiting : p.state = .waitingForChoice) :
      Beat p (p.chosen target)
  | takeCues (p : Player) : Beat p p.takeCues.2

/-- A player comes to be another, and the nodes it presents on the way. -/
inductive Plays (p : Player) : List Node → Player → Prop
  | refl : Plays p [] p
  | round {ns : List Node} {q : Player} (before : Plays p ns q) (running : q.state = .running) :
      Plays p (ns ++ q.frame.presenting.toList) q.step.1
  | beat {ns : List Node} {q r : Player} (before : Plays p ns q) (beat : Beat q r) : Plays p ns r

/-- What was presented before and after adds up. -/
theorem Plays.trans (h : Plays p ns q) (h' : Plays q ms r) : Plays p (ns ++ ms) r := by
  induction h' with
  | refl => rwa [List.append_nil]
  | round _ running ih =>
    rw [← List.append_assoc]
    exact ih.round running
  | beat _ beat ih => exact ih.beat beat

/-- A round of the loop presents the node at the cursor, if it presents one. -/
theorem Plays.of_round (running : p.state = .running) :
    Plays p p.frame.presenting.toList p.step.1 := Plays.refl.round running

/-- Between the rounds nothing is presented. -/
theorem Plays.of_beat (h : Beat p q) : Plays p [] q := Plays.refl.beat h

/-- A run of so many rounds plays what it presents in them. -/
theorem plays_runFor (budget : Nat) (h : p.state = .running) :
    Plays p (p.presentedFor budget) (p.runFor budget) := by
  induction budget generalizing p with
  | zero => exact .refl
  | succ budget ih =>
    have first : Plays p p.frame.presenting.toList p.step.1 := .of_round h
    have going := p.step_state
    unfold runFor presentedFor
    generalize p.step = outcome at first going ⊢
    obtain ⟨q, goes⟩ := outcome
    cases goes with
    | true => exact first.trans (ih ((going rfl).trans h))
    | false => exact first.trans .refl

/-- A run plays the nodes it presents. -/
theorem plays_run (h : p.state = .running) : Plays p p.presentedInRun p.run := plays_runFor _ h

/-- A tick plays some nodes, those of the run in it, if there is one. -/
theorem plays_tick (p : Player) : ∃ ns, Plays p ns p.tick := by
  have counted : Plays p [] p.countDown := .of_beat (.countDown p)
  obtain ⟨ns, resumed⟩ : ∃ ns, Plays p ns p.countDown.resume := by
    unfold resume
    split
    next running => exact ⟨_, counted.trans (plays_run running)⟩
    next => exact ⟨_, counted⟩
  have animated : Plays p ns p.countDown.resume.animate := resumed.beat (.animate _)
  refine ⟨ns, ?_⟩
  unfold tick
  dsimp only
  split
  next closing => exact animated.beat (.closeTick closing)
  next => exact animated

/-- A player that waits presents nothing by ticking, and goes on waiting. -/
theorem plays_ticks (n : Nat) (p : Player) (h : p.isWaiting) :
    Plays p [] (tick^[n] p) ∧ (tick^[n] p).isWaiting := by
  induction n generalizing p with
  | zero => exact ⟨.refl, h⟩
  | succ n ih =>
    have counted : p.countDown = p := by
      unfold countDown
      split
      next ms delaying => simp [isWaiting, delaying] at h
      next => rfl
    have resumed : p.resume = p := by
      unfold resume
      rw [if_neg (by rintro running; simp [isWaiting, running] at h)]
    have state : p.animate.state = p.state := congrArg Story.state p.animate_story
    have ticked : p.tick = p.animate := by
      unfold tick
      dsimp only
      rw [counted, resumed, state, if_neg (by rintro closing; simp [isWaiting, closing] at h)]
    have waiting : p.tick.isWaiting := by
      unfold isWaiting
      rw [ticked, state]
      exact h
    have first : Plays p [] p.tick := ticked ▸ .of_beat (.animate p)
    rw [Function.iterate_succ_apply]
    exact ⟨first.trans (ih _ waiting).1, (ih _ waiting).2⟩

/-- A click plays what the loop presents when it goes on. -/
theorem plays_advance (p : Player) : ∃ ns, Plays p ns p.advance := by
  unfold advance
  split
  next waiting =>
    have left : ∃ ns, Plays p ns p.leave :=
      ⟨_, (Plays.of_beat (.left waiting)).trans (plays_run rfl)⟩
    split
    next id revealing =>
      split
      next => exact ⟨[], .of_beat (.completeReveal waiting revealing)⟩
      next => exact left
    next => exact left
  next => exact ⟨[], .refl⟩

/-- A chosen target plays what is presented from there on. -/
theorem plays_choose (p : Player) (target : String) : ∃ ns, Plays p ns (p.choose target) := by
  by_cases waiting : p.state = .waitingForChoice
  · rw [choose_eq_chosen _ target waiting]
    exact ⟨_, (Plays.of_beat (.chosen target waiting)).trans (plays_run rfl)⟩
  · unfold choose
    rw [if_neg waiting]
    exact ⟨[], .refl⟩

/-- An option that is chosen by its place plays what its target does. -/
theorem plays_chooseOption (p : Player) (index : Nat) :
    ∃ ns, Plays p ns (p.chooseOption index) := by
  unfold chooseOption
  split
  next =>
    split
    next o _ => exact p.plays_choose o.target
    next => exact ⟨[], .refl⟩
  next => exact ⟨[], .refl⟩

end VisualNovel.Player
