import VisualNovel.Proofs.Player.Cover
import VisualNovel.Proofs.Stage.Operations

/-!
# Counts of steps

A crossfade counts twice the steps it is given, so it must not be given more than half of a
word. A node that asks for a background gives half of its duration in ticks, and a duration is
a word; so of whatever length the ticks are, there is room for the double.

> `Session.presentBackground_animator`: a background is crossfaded to in less than half a word
> of steps.

> `Animator.performAll_consistent`: tasks stay consistent whatever is asked of an animator, and
> their counts of steps stay words.
-/

namespace VisualNovel

theorem stepCount_lt {duration bound : Nat} (h : duration < bound) (one : 1 < bound) (tick : Nat) :
    stepCount duration tick < bound :=
  max_lt ((Nat.div_le_self duration _).trans_lt h) one

namespace Session

variable (setup : Setup) (instant : Bool)

/-- A background that is not shown at once is crossfaded to, in less than half a word of
steps. -/
theorem presentBackground_animator (name time : String) (s : Session) :
    (presentBackground setup instant name time s).animator = s.animator ∨
      ∃ locator halfSteps, halfSteps < twoPow 31 ∧
        (presentBackground setup instant name time s).animator =
          (s.animator.crossfade name locator halfSteps).1 := by
  have room : setup.steps ((TimeSpec.parse time).ms / 2) < twoPow 31 := by
    have word := TimeSpec.parse_ms_lt time
    have twice : twoPow 32 = 2 * twoPow 31 := by decide
    exact stepCount_lt (by omega) (by decide) _
  unfold presentBackground
  split
  next => exact .inl rfl
  next =>
    dsimp only
    split
    next => exact .inl rfl
    next locator _ =>
      split
      next => exact .inr ⟨locator, _, room, rfl⟩
      next => exact .inl rfl

end Session

namespace Animator

/-- After any operations on a new animator its tasks are consistent, no identity was given out
twice, and no count of steps is more than a word, if counts are given as words and those of
half a crossfade as no more than half a word. This is what a node gives that asks for a
background, whatever its duration and the length of a tick. -/
theorem performAll_consistent {ops : List Operation} (inRange : ∀ op ∈ ops, op.InRange) :
    (performAll ops .empty).1.Consistent ∧
      (performAll ops .empty).2.Pairwise (· < ·) ∧
      (∀ s ∈ (performAll ops .empty).1.slots, s.steps < twoPow 32) ∧
      ∀ (setup : Setup) (instant : Bool) (n : Node) (session : Session),
        n.kind = .backgroundSet →
        (session.present setup instant n).session.animator = session.animator ∨
          ∃ name locator halfSteps, 2 * max halfSteps 1 < twoPow 32 ∧
            (session.present setup instant n).session.animator =
              (session.animator.crossfade name locator halfSteps).1 := by
  refine ⟨(Built.empty.performAll inRange).consistent, ?_, ?_, ?_⟩
  · obtain ⟨count, issued⟩ := performAll_issued ops .empty
    rw [issued]
    exact List.pairwise_lt_range'
  · have none : Animator.empty.Words := nofun
    exact none.performAll inRange
  · intro setup instant n session backs
    have asked : (session.present setup instant n).session =
        session.presentBackground setup instant (n.param 0) (n.param 1) := by
      unfold Session.present
      rw [backs]
    rw [asked]
    rcases session.presentBackground_animator setup instant (n.param 0) (n.param 1) with
      same | ⟨locator, halfSteps, room, fades⟩
    · exact .inl same
    · have twice : twoPow 32 = 2 * twoPow 31 := by decide
      have positive : 1 < twoPow 31 := by decide
      exact .inr ⟨n.param 0, locator, halfSteps, by omega, fades⟩

/-- A second background while the first is on its way, and a shake that ends before it. -/
def twoBackgrounds : List Operation :=
  [.crossfade "room" none 4, .shakeObject "lamp" 20, .tick 16 .empty, .crossfade "hall" none 1,
    .tick 16 .empty]

/-- The second crossfade took the place of the first: it alone is left, in the middle. -/
theorem performAll_consistent_twoBackgrounds :
    (∀ op ∈ twoBackgrounds, op.InRange) ∧ (performAll twoBackgrounds .empty).1.Consistent ∧
      (performAll twoBackgrounds .empty).2 = [1, 2, 3] ∧
      (performAll twoBackgrounds .empty).1.slots =
        [⟨3, .crossfade "hall" none false, 1, 2, .linear⟩] := by
  have inRange : ∀ op ∈ twoBackgrounds, op.InRange := by
    simp [twoBackgrounds, Operation.InRange, twoPow]
  exact ⟨inRange, (performAll_consistent inRange).1, by decide +kernel, by decide +kernel⟩

end Animator

end VisualNovel
