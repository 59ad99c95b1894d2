import VisualNovel.Proofs.Player.Attempts
import VisualNovel.Proofs.Player.Cursor

/-!
# Restoring a snapshot

A snapshot keeps frames by position. Positions of a coherent story resolve, in any
player of the same script, to the frames they were taken from, so that restoring
succeeds; what it resumes is the story of the snapshot, rewound past the line it waits
at (`restore_snapshot`). Presenting the node of a wait again then makes up for the
rewinding (`Coherent.present_rewound`), and the wait comes back as it was
(`restore_story`).
-/

namespace VisualNovel

theorem Cursor.fits_of_mem {root : Block} {f : Frame} {stack : List Frame}
    (h : Cursor root f stack) : ∀ g ∈ stack, g.Fits root := by
  induction h with
  | bottom => exact fun g hg => absurd hg List.not_mem_nil
  | inner _ _ below ih =>
    intro g hg
    rcases List.mem_cons.mp hg with rfl | hg
    · exact below.fits
    · exact ih g hg

namespace Story

/-- The narration before the line a story waits at is recorded again. -/
def rewound (s : Story) : Narration :=
  if s.state = .waitingForClick && s.frame.current.any (·.kind = .text) then
    { s.narration with history := s.narration.history.dropLast }
  else s.narration

/-- A node to click on is a line, or tells nothing. -/
theorem present_of_waitClick {n : Node} (h : n.next = .waitClick) (hk : n.kind ≠ .text)
    (t : Narration) : Narration.present n t = t := by
  unfold Node.next at h
  unfold Narration.present
  cases hn : n.kind with
  | text => exact absurd hn hk
  | choicePrompt =>
    rw [hn] at h
    cases ho : n.options.isEmpty with
    | true => rfl
    | false => simp [ho] at h
  | variableSet => simp [hn] at h
  | _ => rfl

/-- A choice tells the same a second time. -/
theorem present_present_of_waitChoice {n : Node} (h : n.next = .waitChoice) (t : Narration) :
    Narration.present n (Narration.present n t) = Narration.present n t := by
  unfold Node.next at h
  unfold Narration.present
  cases hn : n.kind with
  | text => simp [hn] at h
  | choicePrompt =>
    cases n.options.isEmpty with
    | true => rfl
    | false => rfl
  | variableSet => simp [hn] at h
  | _ => rfl

/-- A line makes up for its record that was taken away. -/
theorem present_dropLast_present {n : Node} (hk : n.kind = .text) (t : Narration) :
    Narration.present n { Narration.present n t with
      history := (Narration.present n t).history.dropLast } = Narration.present n t := by
  unfold Narration.present
  rw [hk]
  simp

/-- Presenting the node of a wait again tells what was told when it came. -/
theorem Coherent.present_rewound {s : Story} (h : s.Coherent) (hw : s.isWaiting = true) :
    ∃ n, s.frame.current = some n ∧ s.rewound.present n = s.narration ∧
      (s.state = .waitingForClick ∧ n.next = .waitClick ∨
        s.state = .waitingForChoice ∧ n.next = .waitChoice) := by
  simp only [isWaiting, Bool.or_eq_true, decide_eq_true_eq] at hw
  rcases hw with hs | hs
  · obtain ⟨n, t, here, hn, told⟩ := h.atClick hs
    refine ⟨n, here, ?_, .inl ⟨hs, hn⟩⟩
    unfold rewound
    by_cases hk : n.kind = .text
    · rw [if_pos (by simp [hs, here, hk]), told]
      exact present_dropLast_present hk t
    · rw [if_neg (by simp [here, hk])]
      exact present_of_waitClick hn hk _
  · obtain ⟨n, t, here, hn, told⟩ := h.atChoice hs
    refine ⟨n, here, ?_, .inr ⟨hs, hn⟩⟩
    unfold rewound
    rw [if_neg (by simp [hs]), told]
    exact present_present_of_waitChoice hn t

/-- A wait that is rewound and runs comes back in the next round. -/
theorem Coherent.round_rewound {s : Story} (h : s.Coherent) (hw : s.isWaiting = true) :
    ({ s with state := .running, narration := s.rewound } : Story).round = s := by
  obtain ⟨n, here, told, hn⟩ := h.present_rewound hw
  have plain : n.next ≠ .proceed := by
    rcases hn with ⟨-, hn⟩ | ⟨-, hn⟩
    · simp [hn]
    · simp [hn]
  let again : Story := { s with state := .running, narration := s.rewound }
  rw [show again.round = again.dispatch n from round_eq_dispatch here plain]
  show follow { again with narration := s.rewound.present n } n.next = s
  rw [told]
  rcases hn with ⟨hs, hn⟩ | ⟨hs, hn⟩
  · rw [hn]
    show Story.mk .waitingForClick s.root s.frame s.stack s.narration = s
    rw [← hs]
  · rw [hn]
    show Story.mk .waitingForChoice s.root s.frame s.stack s.narration = s
    rw [← hs]

end Story

namespace Player

/-- The position of a frame of the tree resolves to the frame. -/
theorem resolveFrame_of {root : Block} {f : Frame} (h : f.Fits root) :
    resolveFrame root (.of f) = .ok f := by
  unfold resolveFrame
  rw [show (FrameSnapshot.of f).path = f.path from rfl, h.resolves]
  exact if_neg (Nat.not_lt.mpr h.pc_le)

theorem mapM_resolveFrame {root : Block} (frames : List Frame)
    (h : ∀ f ∈ frames, f.Fits root) :
    (frames.map FrameSnapshot.of).mapM (resolveFrame root) = .ok frames := by
  induction frames with
  | nil => rfl
  | cons f fs ih =>
    rw [List.map_cons, List.mapM_cons, resolveFrame_of (h f List.mem_cons_self),
      ih fun g hg => h g (List.mem_cons_of_mem f hg)]
    rfl

/-- What a restored stage tells is what the snapshot told, rewound. -/
theorem restored_narration (p : Player) :
    (if waitsOnText p.snapshot p.frame then
      { p.snapshot.stage.settle with history := p.snapshot.stage.settle.history.dropLast }
    else p.snapshot.stage.settle : Stage).narration p.session.vars = p.story.rewound := by
  have settled : p.snapshot.stage.settle.narration p.session.vars = p.session.narration := by
    rw [Stage.settle_narration]
    exact Animator.finishAll_narration ..
  have dropped : ({ p.snapshot.stage.settle with
      history := p.snapshot.stage.settle.history.dropLast } : Stage).narration p.session.vars =
      { p.session.narration with history := p.session.narration.history.dropLast } := by
    rw [← settled]
    rfl
  rw [apply_ite fun stage : Stage => stage.narration p.session.vars, settled, dropped]
  rfl

/-- Restoring a snapshot of a coherent story in a player of the same script succeeds. A
pause is resumed as it is; any other story is rewound and runs. -/
theorem restore_snapshot {p q : Player} (h : p.story.Coherent) (hroot : q.root = p.root) :
    ∃ r : Player, r.story = { p.story with state := r.state, narration := p.story.rewound } ∧
      (q.restore p.snapshot = .ok r ∧ (∃ ms, p.state = .delaying ms) ∧ r.state = p.state ∨
        q.restore p.snapshot = .ok r.run ∧ (∀ ms, p.state ≠ .delaying ms) ∧
          r.state = .running) := by
  -- Every frame of a coherent story is a place of its script, so all are found again.
  have hframe : resolveFrame q.root p.snapshot.frame = .ok p.frame := by
    rw [hroot]
    exact resolveFrame_of h.cursor.fits
  have hstack : p.snapshot.stack.mapM (resolveFrame q.root) = .ok p.stack.reverse := by
    rw [hroot]
    exact mapM_resolveFrame _ fun f hf => h.cursor.fits_of_mem f (List.mem_reverse.mp hf)
  -- Whatever the state, the rest of the story is the same.
  have story_of (r : Player) (h₁ : r.root = q.root) (h₂ : r.frame = p.frame)
      (h₃ : r.stack = p.stack) (h₄ : r.session.narration = p.story.rewound) :
      r.story = { p.story with state := r.state, narration := p.story.rewound } := by
    show Story.mk r.state r.root r.frame r.stack r.session.narration = _
    rw [h₁, h₂, h₃, h₄, hroot]
    rfl
  rw [restore_eq]
  unfold takenUp
  rw [hframe]
  dsimp only [bind, Except.bind]
  rw [hstack]
  dsimp only [Except.map, pure, Except.pure]
  rw [List.reverse_reverse, show p.snapshot.state = p.state from rfl]
  cases hs : p.state with
  | delaying ms =>
    refine ⟨_, ?_, .inl ⟨rfl, ⟨ms, rfl⟩, rfl⟩⟩
    exact story_of _ rfl rfl rfl p.restored_narration
  | _ =>
    refine ⟨_, ?_, .inr ⟨rfl, fun ms => by simp, rfl⟩⟩
    exact story_of _ rfl rfl rfl p.restored_narration

/-- What a snapshot restores is coherent if the story it was taken from was. -/
theorem restore_coherent {p q r : Player} (h : p.story.Coherent) (hroot : q.root = p.root)
    (hr : q.restore p.snapshot = .ok r) : r.story.Coherent := by
  have resumed (t : Player) (ht : t.story =
      { p.story with state := t.state, narration := p.story.rewound })
      (hw : t.story.isWaiting = false) : t.story.Coherent :=
    Story.Coherent.of_not_waiting (by rw [ht]; exact h.cursor) hw
  obtain ⟨t, ht, ⟨hok, ⟨ms, hs⟩, hstate⟩ | ⟨hok, -, hstate⟩⟩ := restore_snapshot h hroot
  · obtain rfl : t = r := Except.ok.inj (hok.symm.trans hr)
    exact resumed t ht (by simp [Story.isWaiting, story, hstate, hs])
  · obtain rfl : t.run = r := Except.ok.inj (hok.symm.trans hr)
    have running := resumed t ht (by simp [Story.isWaiting, story, hstate])
    exact Story.Coherent.untimed_iff.mp
      ((Story.Coherent.untimed_iff.mpr running).leads (t.leads_run hstate))

/-- A pause is restored with the time that is left of it, a wait by presenting its node
again. -/
theorem restore_story {p q : Player} (h : p.story.Coherent) (hroot : q.root = p.root)
    (hs : p.isWaiting = true ∨ ∃ ms, p.state = .delaying ms) :
    ∃ r, q.restore p.snapshot = .ok r ∧ r.story = p.story := by
  obtain ⟨t, ht, ⟨hok, ⟨ms, hp⟩, hstate⟩ | ⟨hok, hp, hstate⟩⟩ := restore_snapshot h hroot
  · refine ⟨t, hok, ?_⟩
    have same : p.story.rewound = p.story.narration := by
      unfold Story.rewound
      rw [if_neg (by simp [story, hp])]
    rw [ht, same, hstate]
    rfl
  · have hw : p.story.isWaiting = true := by
      rcases hs with hw | ⟨ms, hms⟩
      · exact hw
      · exact absurd hms (hp ms)
    have back : t.story.round = p.story := by
      rw [ht, hstate]
      exact h.round_rewound hw
    refine ⟨t.run, hok, ?_⟩
    rw [t.run_story_of_isWaiting hstate (by rw [back]; exact hw), back]

end Player

end VisualNovel
