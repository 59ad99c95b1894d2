import VisualNovel.Proofs.Player.Reachable
import VisualNovel.Proofs.Player.Replies

/-!
# A restored session goes on as the saved one

Where a player waits or pauses, a snapshot of it loses nothing of its story: restored in
a player of the same script it brings the story back (`Player.restore_story`). Since
what the story comes to is a matter of the replies alone, the two players have the same
story at every wait to come.

> `restore_resumes`: restoring a snapshot of a reachable player succeeds, and the same
> replies lead both players to the same waits.
-/

namespace VisualNovel

namespace Player

/-- A snapshot of a reachable player that waits or pauses is restored by any player of
the same script, with the story it was taken from, the rest of a pause included. From
then on the two have the same story at the wait after the same replies, whatever the
ticks between them. -/
theorem restore_resumes {p q : Player} (h : p.Reachable) (hroot : q.root = p.root)
    (hs : p.isWaiting = true ∨ ∃ ms, p.state = .delaying ms) :
    ∃ r, q.restore p.snapshot = .ok r ∧ r.story = p.story ∧
      ∀ (slots slots' : SaveSlots Id) (rs : List Reply) (p' r' : Player),
        Driven slots p rs p' → Driven slots' r rs r' →
        p'.isWaiting = true → r'.isWaiting = true → r'.story = p'.story := by
  obtain ⟨r, hr, back⟩ := restore_story h.coherent hroot hs
  refine ⟨r, hr, back, fun slots slots' rs p' r' hp' hr' wp wr => ?_⟩
  have told : p.story.untimed.Told rs r'.story.untimed := by
    rw [← back]
    exact told_of_driven hr'
  exact story_eq_of_told told (told_of_driven hp') wr wp

/-- The inner line of `twoDeep` comes back, for a player that finds assets and had not
left the outer line. -/
theorem restore_resumes_twoDeep :
    let slots : SaveSlots Id := ⟨fun _ _ => (), fun _ => none⟩
    let p := ((new ⟨fun _ _ => none, {}, {}⟩ .accepting).start twoDeep 0).advance.advance
    let q := (new ⟨fun _ name => some name, {}, {}⟩ .accepting).start twoDeep 0
    p.Reachable ∧ q.root = p.root ∧ p.isWaiting = true ∧
      ∃ r, q.restore p.snapshot = .ok r ∧ r.frame.path = [⟨0, true⟩, ⟨1, false⟩] ∧
        ∀ r', Driven slots r [] r' → r'.isWaiting = true → r'.story = p.story := by
  intro slots p q
  have reachable : p.Reachable := ((Reachable.new _ _).start twoDeep 0).advance.advance
  have hroot : q.root = p.root := rfl
  have hw : p.isWaiting = true := by decide +kernel
  have hpath : p.frame.path = [⟨0, true⟩, ⟨1, false⟩] := by decide +kernel
  obtain ⟨r, hr, back, after⟩ := restore_resumes reachable hroot (.inl hw)
  refine ⟨reachable, hroot, hw, r, hr, ?_, fun r' hr' => after slots slots [] p r' (.refl p) hr' hw⟩
  rw [show r.frame = p.frame from congrArg Story.frame back, hpath]

end Player

end VisualNovel
