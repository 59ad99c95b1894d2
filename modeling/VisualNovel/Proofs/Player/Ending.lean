import VisualNovel.Proofs.Player.Prompts

/-!
# Sessions that end

Once a session is closing, nothing but ticks brings it further: answers are ignored, the loop does
not go on, and what is left are the tasks and the clock of the end. And once it is over it stays
so.

> `Player.Over.tick_eq`: what a tick of such a session is.

> `Player.Entry.over`: no call of a host opens the session again.
-/

namespace VisualNovel.Player

variable {p q : Player}

/-- The session is closing or over. -/
def Over (p : Player) : Prop := p.state = .closing ∨ p.state = .terminated

@[simp] theorem animate_state (p : Player) : p.animate.state = p.state :=
  congrArg Story.state p.animate_story

@[simp] theorem beginClose_state (p : Player) : p.beginClose.state = .closing :=
  congrArg Story.state p.beginClose_story

namespace Over

/-- A session that is over or closing is in no other state. -/
theorem ne {state : PlayerState} (h : p.Over) (notClosing : state ≠ .closing)
    (notTerminated : state ≠ .terminated) : p.state ≠ state := by
  rintro rfl
  exact h.elim notClosing notTerminated

/-- A tick is one of the tasks and, while the session is closing, one of the end. -/
theorem tick_eq (h : p.Over) :
    p.tick = if p.state = .closing then p.animate.closeTick else p.animate := by
  have counted : p.countDown = p := p.countDown_eq fun ms => h.ne nofun nofun
  have resumed : p.resume = p :=
    if_neg (show p.state ≠ .running from h.ne nofun nofun)
  unfold tick
  dsimp only
  rw [counted, resumed, animate_state]

/-- Clicks are ignored. -/
theorem advance_eq (h : p.Over) : p.advance = p :=
  if_neg (show p.state ≠ .waitingForClick from h.ne nofun nofun)

/-- So are targets that are chosen. -/
theorem choose_eq (h : p.Over) (target : String) : p.choose target = p :=
  if_neg (show p.state ≠ .waitingForChoice from h.ne nofun nofun)

/-- So are options that are chosen by their place. -/
theorem chooseOption_eq (h : p.Over) (index : Nat) : p.chooseOption index = p :=
  if_neg (show p.state ≠ .waitingForChoice from h.ne nofun nofun)

end Over

/-- The clock of a delay closes no session. -/
theorem over_of_countDown (h : p.countDown.Over) : p.Over := by
  unfold countDown at h
  split at h
  next =>
    have open' (state : PlayerState) (notClosing : state ≠ .closing)
        (notTerminated : state ≠ .terminated) : ¬Over { p with state := state } :=
      fun closed => closed.ne notClosing notTerminated rfl
    split at h
    next => exact absurd h (open' _ (by simp) (by simp))
    next => exact absurd h (open' _ (by simp) (by simp))
  next => exact h

/-- A tick of the end leaves the session closing, or ends it. -/
theorem over_closeTick (closing : p.state = .closing) : p.closeTick.Over := by
  unfold closeTick
  split
  next =>
    split
    next => exact .inl closing
    next => exact .inl closing
  next =>
    split
    next => exact .inl closing
    next => exact .inr rfl
  next => exact .inl closing

/-- A session that is closing or over stays so. -/
theorem Entry.over (h : Entry p q) (closed : p.Over) : q.Over := by
  cases h with
  | tick =>
    rw [closed.tick_eq]
    split
    next closing => exact over_closeTick (p.animate_state.trans closing)
    next =>
      unfold Over
      rwa [animate_state]
  | advance => rwa [closed.advance_eq]
  | choose target => rwa [closed.choose_eq]
  | chooseOption index => rwa [closed.chooseOption_eq]
  | dispose => exact .inr rfl

end VisualNovel.Player
