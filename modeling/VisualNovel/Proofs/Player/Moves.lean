import VisualNovel.Proofs.Player.Plays

/-!
# The moves of a player

Each entry point of a player is a chain of small moves: a round of the loop, the count
of a pause, a tick of the tasks, a tick of the end, what an answer does before the loop
goes on. What every move keeps holds at every moment of every session, also within one
call.

> `moves_of_calls`: the calls of a host are a chain of moves.

> `moves_start`: so is a start, from the moment the loop begins.
-/

namespace VisualNovel.Player

open Relation

variable {p q : Player}

/-- One move of a player. -/
inductive Move : Player → Player → Prop
  | round {p : Player} (h : p.state = .running) : Move p p.step.1
  | countDown (p : Player) : Move p p.countDown
  | animate (p : Player) : Move p p.animate
  | closeTick {p : Player} (h : p.state = .closing) : Move p p.closeTick
  | completeReveal {p : Player} (id : TaskId) (h : p.state = .waitingForClick) :
      Move p (p.completeReveal id)
  | left {p : Player} (h : p.state = .waitingForClick) : Move p p.left
  | chosen {p : Player} (target : String) (h : p.state = .waitingForChoice) :
      Move p (p.chosen target)
  | takeCues (p : Player) : Move p p.takeCues.2

/-- Moves one after the other. -/
abbrev Moves : Player → Player → Prop := ReflTransGen Move

/-- One call of a host in a session: a tick, an answer, or a look at the cues. -/
inductive Call : Player → Player → Prop
  | tick (p : Player) : Call p p.tick
  | advance (p : Player) : Call p p.advance
  | choose (p : Player) (target : String) : Call p (p.choose target)
  | chooseOption (p : Player) (index : Nat) : Call p (p.chooseOption index)
  | takeCues (p : Player) : Call p p.takeCues.2

/-- Calls one after the other. -/
abbrev Calls : Player → Player → Prop := ReflTransGen Call

/-- What happens between the rounds are moves. -/
theorem Beat.move (h : Beat p q) : Move p q := by
  cases h with
  | countDown => exact .countDown p
  | animate => exact .animate p
  | closeTick closing => exact .closeTick closing
  | completeReveal waiting _ => exact .completeReveal _ waiting
  | left waiting => exact .left waiting
  | chosen target waiting => exact .chosen target waiting
  | takeCues => exact .takeCues p

/-- What is played is moved. -/
theorem Plays.moves {ns : List Node} (h : Plays p ns q) : Moves p q := by
  induction h with
  | refl => exact .refl
  | round _ running ih => exact ih.tail (.round running)
  | beat _ beat ih => exact ih.tail beat.move

/-- A call of the host plays some nodes. -/
theorem Call.plays (h : Call p q) : ∃ ns, Plays p ns q := by
  cases h with
  | tick => exact p.plays_tick
  | advance => exact p.plays_advance
  | choose target => exact p.plays_choose target
  | chooseOption index => exact p.plays_chooseOption index
  | takeCues => exact ⟨[], .of_beat (.takeCues p)⟩

/-- What calls bring about plays some nodes. -/
theorem plays_of_calls (h : Calls p q) : ∃ ns, Plays p ns q := by
  induction h with
  | refl => exact ⟨[], .refl⟩
  | tail _ call ih =>
    obtain ⟨ns, before⟩ := ih
    obtain ⟨ms, after⟩ := call.plays
    exact ⟨ns ++ ms, before.trans after⟩

theorem moves_start (p : Player) (scenes : Block) (index : Nat) :
    Moves (p.opened scenes index) (p.start scenes index) :=
  (plays_run (p := p.opened scenes index) rfl).moves

theorem moves_of_calls (h : Calls p q) : Moves p q :=
  have ⟨_, plays⟩ := plays_of_calls h
  plays.moves

/-! ## What a tick of the tasks changes -/

/-- Signals change the session only, and of it neither the stage nor the tasks. -/
theorem foldl_handle_eq (signals : List Signal) (p : Player) :
    ∃ session : Session, signals.foldl handle p = { p with session := session } ∧
      session.stage = p.session.stage ∧ session.animator = p.session.animator := by
  induction signals generalizing p with
  | nil => exact ⟨p.session, rfl, rfl, rfl⟩
  | cons signal signals ih =>
    obtain ⟨session, hp, hstage, hanimator⟩ := ih (p.handle signal)
    have first : ∃ session : Session, p.handle signal = { p with session := session } ∧
        session.stage = p.session.stage ∧ session.animator = p.session.animator := by
      unfold handle
      cases signal with
      | letter index =>
        dsimp only
        split
        next => exact ⟨_, rfl, rfl, rfl⟩
        next => exact ⟨_, rfl, rfl, rfl⟩
      | backgroundSwapped name locator => exact ⟨_, rfl, rfl, rfl⟩
    obtain ⟨handled, hq, hstage', hanimator'⟩ := first
    rw [hq] at hp hstage hanimator
    exact ⟨session, (List.foldl_cons ..).trans (hq ▸ hp), hstage.trans hstage',
      hanimator.trans hanimator'⟩

/-- What a tick of the tasks makes of a player: what it makes of the stage and the
tasks, and nothing else but cues and sounds. -/
theorem animate_eq (p : Player) :
    ∃ session : Session, p.animate = { p with session := session } ∧
      session.stage = (p.session.animator.tick p.setup.player.tickMs p.session.stage).2.1 ∧
      session.animator = (p.session.animator.tick p.setup.player.tickMs p.session.stage).1 := by
  unfold animate
  dsimp only
  obtain ⟨session, hp, hstage, hanimator⟩ := foldl_handle_eq
    (p.session.animator.tick p.setup.player.tickMs p.session.stage).2.2
    ((p.withAnimator (p.session.animator.tick p.setup.player.tickMs p.session.stage).1).withStage
      (p.session.animator.tick p.setup.player.tickMs p.session.stage).2.1)
  exact ⟨session, hp, hstage, hanimator⟩

end VisualNovel.Player
