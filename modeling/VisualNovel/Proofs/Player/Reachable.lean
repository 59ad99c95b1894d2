import VisualNovel.Proofs.Player.Restore

/-!
# Reachable players

`Reachable` is every player a host can come to: a new one, and what any entry point
makes of a reachable one, among them restoring a snapshot of another reachable player
of the same script. All of them have coherent stories (`Reachable.coherent`).

> `frames_chain`: the frames of a player, read from the root inwards, are one chain of
> branches, so that the depth is the length of the path of the cursor.
-/

namespace VisualNovel

namespace Player

/-- The players a host can come to. -/
inductive Reachable : Player → Prop
  | new (setup : Setup) (audio : AudioSink) : Reachable (.new setup audio)
  | start {p : Player} (scenes : Block) (index : Nat) :
      Reachable p → Reachable (p.start scenes index)
  | tick {p : Player} : Reachable p → Reachable p.tick
  | advance {p : Player} : Reachable p → Reachable p.advance
  | choose {p : Player} (target : String) : Reachable p → Reachable (p.choose target)
  | chooseOption {p : Player} (index : Nat) : Reachable p → Reachable (p.chooseOption index)
  | dispose {p : Player} : Reachable p → Reachable p.dispose
  | restore {p q r : Player} : Reachable p → Reachable q → q.root = p.root →
      q.restore p.snapshot = .ok r → Reachable r

/-- Wherever a coherent story leads a player, its story is coherent. -/
theorem coherent_of_leads {s : Story} {p : Player} (h : s.Coherent)
    (hl : Story.Leads s p.story.untimed) : p.story.Coherent :=
  Story.Coherent.untimed_iff.mp (h.leads hl)

variable {p : Player}

/-- A click keeps the story coherent. -/
theorem advance_coherent (h : p.story.Coherent) : p.advance.story.Coherent := by
  rcases p.advance_cases with same | ⟨id, revealed⟩ | ⟨hw, left⟩
  · rwa [same]
  · rwa [revealed]
  · rw [left]
    exact coherent_of_leads (h.leave hw) p.leads_leave

/-- So does a chosen target. -/
theorem choose_coherent (h : p.story.Coherent) (target : String) :
    (p.choose target).story.Coherent := by
  by_cases hw : p.state = .waitingForChoice
  · exact coherent_of_leads (h.choose hw target) (p.leads_choose target hw)
  · unfold choose
    rwa [if_neg hw]

theorem chooseOption_coherent (h : p.story.Coherent) (index : Nat) :
    (p.chooseOption index).story.Coherent := by
  unfold chooseOption
  split
  next =>
    split
    next o _ => exact choose_coherent h o.target
    next => exact h
  next => exact h

theorem dispose_coherent (h : p.story.Coherent) : p.dispose.story.Coherent := by
  refine .of_not_waiting ?_ rfl
  have released := ((p.withAnimator p.session.animator.cancelAll).call .stop).releasePool_story
  have hroot : p.dispose.root = p.root := congrArg Story.root released
  have hframe : p.dispose.frame = p.frame := congrArg Story.frame released
  have hstack : p.dispose.stack = p.stack := congrArg Story.stack released
  show Cursor p.dispose.root p.dispose.frame p.dispose.stack
  rw [hroot, hframe, hstack]
  exact h.cursor

/-- Every reachable player has a coherent story. -/
theorem Reachable.coherent (h : Reachable p) : p.story.Coherent := by
  induction h with
  | new setup audio => exact .of_not_waiting (.atRoot (Nat.le_refl 0)) rfl
  | start scenes index _ _ => exact coherent_of_leads (.opening scenes index) (leads_start _ _ _)
  | @tick p _ ih => exact coherent_of_leads (Story.Coherent.untimed_iff.mpr ih) p.leads_tick
  | advance _ ih => exact advance_coherent ih
  | choose target _ ih => exact choose_coherent ih target
  | chooseOption index _ ih => exact chooseOption_coherent ih index
  | dispose _ ih => exact dispose_coherent ih
  | restore _ _ hroot hr ih _ => exact restore_coherent ih hroot hr

/-! ## The frames of a player -/

/-- The frames from the root inwards; the last one is the cursor. -/
def frames (p : Player) : List Frame := (p.frame :: p.stack).reverse

end Player

namespace Cursor

variable {root : Block} {f : Frame} {stack : List Frame}

theorem getElem?_concat_cases {frames : List Frame} {last g : Frame} {i : Nat}
    (h : (frames ++ [last])[i]? = some g) :
    frames[i]? = some g ∨ i = frames.length ∧ g = last := by
  by_cases hi : i < frames.length
  · rw [List.getElem?_append_left hi] at h
    exact .inl h
  · obtain ⟨hlt, rfl⟩ := List.getElem?_eq_some_iff.mp h
    have atEnd : i = frames.length := by
      rw [List.length_append, List.length_singleton] at hlt
      omega
    exact .inr ⟨atEnd, List.getElem_concat_length atEnd _⟩

/-- From the root inwards, every frame is a place of the tree, and as deep as its path
is long. -/
theorem frames_fit (h : Cursor root f stack) {i : Nat} {g : Frame}
    (hg : (f :: stack).reverse[i]? = some g) : g.Fits root ∧ g.path.length = i := by
  have depth := h.length_path
  induction h with
  | @bottom f fits path =>
    rw [List.reverse_cons] at hg
    rcases getElem?_concat_cases hg with hg | ⟨rfl, rfl⟩
    · exact absurd hg (by simp)
    · exact ⟨fits, depth.symm⟩
  | @inner f outer rest fits entered below ih =>
    rw [List.reverse_cons] at hg
    rcases getElem?_concat_cases hg with hg | ⟨rfl, rfl⟩
    · exact ih hg below.length_path
    · rw [List.length_reverse]
      exact ⟨fits, depth.symm⟩

/-- Of two frames next to each other, the inner one is in a branch of the conditional
just before the place of the outer one. -/
theorem frames_entered (h : Cursor root f stack) {i : Nat} {outer inner : Frame}
    (ho : (f :: stack).reverse[i]? = some outer)
    (hi : (f :: stack).reverse[i + 1]? = some inner) : outer.EnteredFrom inner := by
  induction h with
  | @bottom f fits path => exact absurd hi (by simp)
  | @inner f parent rest fits entered below ih =>
    rw [List.reverse_cons] at ho hi
    rcases getElem?_concat_cases hi with hi | ⟨last, rfl⟩
    · rcases getElem?_concat_cases ho with ho | ⟨past, -⟩
      · exact ih ho hi
      · obtain ⟨hlt, -⟩ := List.getElem?_eq_some_iff.mp hi
        omega
    · rcases getElem?_concat_cases ho with ho | ⟨past, -⟩
      · have : i = rest.reverse.length := by simpa using last
        rw [List.reverse_cons, this, List.getElem?_concat_length] at ho
        rw [← Option.some.inj ho]
        exact entered
      · omega

end Cursor

namespace Player

/-- The frames of a reachable player are one chain: each holds the block at its path,
the path of the frame at depth `i` has `i` steps, and each frame sits in a branch of
the conditional just before the place of the frame below it. The depth is therefore
the length of the path of the cursor, and the script nests conditionals that deep. -/
theorem frames_chain {p : Player} (h : Reachable p) :
    (∀ i (f : Frame), p.frames[i]? = some f →
      Script.resolve p.root f.path = some f.block ∧ f.pc ≤ f.block.length ∧
        f.path.length = i) ∧
    (∀ i (outer inner : Frame), p.frames[i]? = some outer → p.frames[i + 1]? = some inner →
      0 < outer.pc ∧ ∃ n side, outer.block[outer.pc - 1]? = some n ∧
        n.kind = .conditional ∧ inner.path = outer.path ++ [⟨outer.pc - 1, side⟩]) ∧
    p.stack.length = p.frame.path.length ∧ p.stack.length ≤ Script.nesting p.root := by
  have cursor : Cursor p.root p.frame p.stack := h.coherent.cursor
  refine ⟨fun i f hf => ?_, fun i outer inner ho hi => ?_, cursor.length_path, ?_⟩
  · obtain ⟨fits, depth⟩ := cursor.frames_fit hf
    exact ⟨fits.resolves, fits.pc_le, depth⟩
  · have entered := cursor.frames_entered ho hi
    exact ⟨entered.pos, entered.conditional⟩
  · have := cursor.length_add_nesting
    omega

/-- A line in the second branch of a conditional in the first branch of another. -/
def twoDeep : Block :=
  [.conditional ["a", "==", "a"]
    [.dialogue "" "outer", .conditional ["a", "!=", "a"] [] [.dialogue "" "inner"]] []]

/-- Two clicks, one of them to complete a line, lead to the inner line. -/
theorem frames_chain_twoDeep :
    let p := ((new ⟨fun _ _ => none, {}, {}⟩ .accepting).start twoDeep 0).advance.advance
    p.Reachable ∧ p.frame.path = [⟨0, true⟩, ⟨1, false⟩] ∧
      p.stack.length = p.frame.path.length ∧ p.stack.length ≤ Script.nesting p.root := by
  intro p
  have reachable : p.Reachable := ((Reachable.new _ _).start twoDeep 0).advance.advance
  exact ⟨reachable, by decide +kernel, (frames_chain reachable).2.2⟩

end Player

end VisualNovel
