import VisualNovel.Proofs.Player.Moves

/-!
# What the player does for its tasks

A tick of the tasks gives signals, and the player carries them out in their order. A letter
sounds a voice of the loaded sample, if one is loaded; a background that was swapped queues a
cue. Of the session nothing else depends on the signals.

> `Player.animate_session`: the session after a tick of the tasks.
-/

namespace VisualNovel

namespace AudioSink

/-- The sink after calls in order. -/
def callAll (s : AudioSink) (cs : List AudioCall) : AudioSink := cs.foldl call s

/-- Calls are logged in their order. -/
theorem callAll_calls (s : AudioSink) (cs : List AudioCall) :
    (s.callAll cs).calls = s.calls ++ cs := by
  induction cs generalizing s with
  | nil => exact (List.append_nil _).symm
  | cons c cs ih => exact (ih (s.call c)).trans (List.append_cons ..).symm

end AudioSink

/-- The cue that a signal queues. -/
def Signal.cue? : Signal → Option Cue
  | .letter _ => none
  | .backgroundSwapped name locator =>
    some (.backgroundChanged (if name = "_" then none else some name) locator)

/-- The call that a signal leads to, with a sample loaded or without. -/
def Signal.call? (loaded : Bool) (volume : Nat) : Signal → Option AudioCall
  | .letter _ => if loaded then some (.playFromPool volume) else none
  | .backgroundSwapped .. => none

namespace Player

/-- The signals of a tick queue their cues and make their calls, in their order. -/
theorem foldl_handle_session (signals : List Signal) (p : Player) :
    (signals.foldl handle p).session =
      { p.session with
        cues := p.session.cues ++ signals.filterMap Signal.cue?
        audio := p.session.audio.callAll
          (signals.filterMap (Signal.call? p.session.poolLoaded p.setup.sound.letterVolume)) } := by
  induction signals generalizing p with
  | nil => simp only [List.foldl_nil, List.filterMap_nil, List.append_nil]; rfl
  | cons signal signals ih =>
    rw [List.foldl_cons, ih, handle_setup]
    cases signal with
    | letter index =>
      rw [List.filterMap_cons_none (show (Signal.letter index).cue? = none from rfl)]
      unfold handle
      dsimp only
      split
      next loaded =>
        rw [List.filterMap_cons_some (show Signal.call? p.session.poolLoaded _ (.letter index) =
          some (.playFromPool p.setup.sound.letterVolume) from if_pos loaded)]
        rfl
      next unloaded =>
        rw [List.filterMap_cons_none (show Signal.call? p.session.poolLoaded _ (.letter index) =
          none from if_neg unloaded)]
    | backgroundSwapped name locator =>
      have queued : Signal.cue? (.backgroundSwapped name locator) =
        some (.backgroundChanged (if name = "_" then none else some name) locator) := rfl
      rw [List.filterMap_cons_some queued, List.append_cons]
      rfl

/-- The session after a tick of the tasks: the stage and the tasks are a matter of these alone,
and the signals add to the cues and to the calls. -/
theorem animate_session (p : Player) :
    let ticked := p.session.animator.tick p.setup.player.tickMs p.session.stage
    p.animate.session =
      { p.session with
        animator := ticked.1
        stage := ticked.2.1
        cues := p.session.cues ++ ticked.2.2.filterMap Signal.cue?
        audio := p.session.audio.callAll (ticked.2.2.filterMap
          (Signal.call? p.session.poolLoaded p.setup.sound.letterVolume)) } :=
  foldl_handle_session ..

end Player

end VisualNovel
