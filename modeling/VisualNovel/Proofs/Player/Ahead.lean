import VisualNovel.Proofs.Player.Course
import VisualNovel.Proofs.Player.Story

/-!
# What a story still has ahead

The cursor and the places to return to leave one list of nodes to play: the rest of the
block, then the rest of each block below. `Story.ahead` is the course of that list.
Without jumps a round takes from it exactly what it presents, and makes it smaller:

> `further_round`: what a round presents and what is ahead after it are what was ahead
> before, and the work left is less unless the story has ended with nothing ahead.
-/

namespace VisualNovel

open Script Node

namespace Script

/-- No node at any depth is a jump. -/
def JumpFree (b : Block) : Prop := ∀ n ∈ blockNodes b, n.kind ≠ .goto

theorem JumpFree.tail {n : Node} {ns : Block} (h : JumpFree (n :: ns)) : JumpFree ns :=
  (forall_blockNodes_cons.mp h).2.2.2

theorem JumpFree.head {n : Node} {ns : Block} (h : JumpFree (n :: ns)) : n.kind ≠ .goto :=
  (forall_blockNodes_cons.mp h).1

end Script

namespace Frame

/-- The nodes from the place on. -/
def rest (f : Frame) : Block := f.block.drop f.pc

/-- Behind the last node there is nothing ahead. -/
theorem rest_of_none {f : Frame} (h : f.current = none) : f.rest = [] := by
  rw [current, List.getElem?_eq_none_iff] at h
  exact List.drop_eq_nil_of_le h

/-- The node at the cursor is the first one ahead. -/
theorem rest_of_some {f : Frame} {n : Node} (h : f.current = some n) :
    f.rest = n :: f.advance.rest :=
  List.drop_eq_getElem?_toList_append.trans (by rw [show f.block[f.pc]? = some n from h]; rfl)

/-- The node that a round of the loop presents here, if it presents one: labels, jumps
and conditionals only move the cursor. -/
def presenting (f : Frame) : Option Node :=
  f.current.filter fun n => n.kind ≠ .label && n.kind ≠ .goto && n.kind ≠ .conditional

end Frame

namespace Story

variable {s t u : Story}

/-- The nodes from the cursor on: those of its block, then those of the blocks below. -/
def rest (s : Story) : Block := s.frame.rest ++ s.stack.flatMap Frame.rest

/-- The nodes still to be played. The node a story waits at is played already. -/
def pending (s : Story) : Block := if s.isWaiting then s.advanceFrame.rest else s.rest

/-- The nodes still to be presented, and the variables in the end. -/
def ahead (s : Story) : List Node × Variables := courseAll s.narration.vars s.pending

/-- How much there is to do: two rounds for each node, to come to it and to leave its
branch again. -/
def work (s : Story) : Nat := 2 * blockSize s.pending + s.stack.length

/-- While a story is running all that is ahead is to be played. -/
theorem pending_of_running (h : s.state = .running) : s.pending = s.rest := by
  unfold pending
  rw [if_neg (by simp [isWaiting, h])]

/-- The node at the cursor is the first one of the story ahead. -/
theorem rest_of_some {n : Node} (here : s.frame.current = some n) :
    s.rest = n :: s.advanceFrame.rest := by
  unfold rest advanceFrame
  rw [Frame.rest_of_some here]
  rfl

/-- Whether the host has something left to do: to tick, to go on or to answer. -/
def isOpen (s : Story) : Bool :=
  match s.state with
  | .running | .delaying _ | .waitingForClick | .waitingForChoice => true
  | _ => false

theorem isOpen_of_running (h : s.state = .running) : s.isOpen = true := by
  unfold isOpen
  rw [h]

/-- A running story stays open when it enters a branch. -/
theorem isOpen_enterBranch (n : Node) (h : s.state = .running) :
    (s.enterBranch n).isOpen = true := by
  refine isOpen_of_running ?_
  unfold enterBranch
  dsimp only
  split
  next => exact h
  next => exact h

/-- However the story goes on after presenting a node, the node is behind it. -/
theorem dispatch_past (n : Node) (hs : s.state = .running) :
    (s.dispatch n).pending = s.advanceFrame.rest ∧ (s.dispatch n).stack = s.stack ∧
      (s.dispatch n).narration = s.narration.present n ∧ (s.dispatch n).root = s.root ∧
      (s.dispatch n).isOpen = true := by
  unfold dispatch
  cases n.next with
  | proceed => exact ⟨pending_of_running hs, rfl, rfl, rfl, isOpen_of_running hs⟩
  | waitClick => exact ⟨rfl, rfl, rfl, rfl, rfl⟩
  | waitChoice => exact ⟨rfl, rfl, rfl, rfl, rfl⟩
  | delay ms => exact ⟨rfl, rfl, rfl, rfl, rfl⟩

/-- A story comes to be another by presenting these nodes: what was ahead is what was
presented and what is ahead now, no work is added, and no jump either. -/
structure Further (s : Story) (shown : List Node) (t : Story) : Prop where
  told : s.ahead = (shown ++ t.ahead.1, t.ahead.2)
  le : t.work ≤ s.work
  free : JumpFree s.pending → JumpFree t.pending
  root : t.root = s.root

theorem Further.refl (s : Story) : Further s [] s := ⟨rfl, Nat.le_refl _, id, rfl⟩

/-- What two stretches of a story present adds up. -/
theorem Further.trans {shown shown' : List Node} (h : Further s shown t)
    (h' : Further t shown' u) : Further s (shown ++ shown') u where
  told := by rw [h.told, h'.told, List.append_assoc]
  le := Nat.le_trans h'.le h.le
  free := fun free => h'.free (h.free free)
  root := h'.root.trans h.root

/-- What is ahead is a matter of the nodes pending and the variables. -/
theorem Further.of_pending (hp : t.pending = s.pending)
    (hstack : t.stack.length ≤ s.stack.length)
    (hvars : t.narration.vars = s.narration.vars) (hroot : t.root = s.root) :
    Further s [] t where
  told := by
    unfold Story.ahead
    rw [hp, hvars]
    rfl
  le := by
    unfold work
    rw [hp]
    omega
  free := fun free => hp ▸ free
  root := hroot

/-- The same with less work left. -/
structure Onward (s : Story) (shown : List Node) (t : Story) : Prop extends
    Further s shown t where
  lt : t.work < s.work

/-- What moves the cursor past a node has played the node. -/
theorem Onward.past {n : Node} {shown : List Node} (hs : s.state = .running)
    (here : s.frame.current = some n) (behind : t.pending = s.advanceFrame.rest)
    (stack : t.stack = s.stack) (root : t.root = s.root)
    (told : course s.narration.vars n = (shown, t.narration.vars)) : Onward s shown t := by
  have pending : s.pending = n :: s.advanceFrame.rest :=
    (pending_of_running hs).trans (rest_of_some here)
  have less : t.work < s.work := by
    have := n.size_pos
    unfold work
    rw [pending, behind, stack, blockSize]
    omega
  refine ⟨⟨?_, Nat.le_of_lt less, ?_, root⟩, less⟩
  · unfold ahead
    rw [pending, behind, courseAll_cons, told]
  · rw [pending, behind]
    exact JumpFree.tail

/-- Entering a branch puts its nodes before those after the conditional. -/
theorem Onward.enter {n : Node} (hs : s.state = .running) (here : s.frame.current = some n)
    (kind : n.kind = .conditional) : Onward s [] (s.enterBranch n) := by
  have told := course_conditional s.narration.vars kind
  unfold enterBranch
  dsimp only
  split
  next empty =>
    rw [List.isEmpty_iff.mp empty] at told
    exact past hs here (pending_of_running hs) rfl rfl told
  next =>
    let side := conditionHolds s.narration.vars n
    let t : Story := { s with
      frame := ⟨n.branch side, 0, s.frame.path ++ [⟨s.frame.pc, side⟩]⟩
      stack := s.frame.advance :: s.stack }
    have pending : s.pending = n :: s.advanceFrame.rest :=
      (pending_of_running hs).trans (rest_of_some here)
    have entered : t.pending = n.branch side ++ s.advanceFrame.rest :=
      pending_of_running (s := t) hs
    -- The conditional is left behind, which outweighs the frame that is put on the stack.
    have less : t.work < s.work := by
      have smaller := n.blockSize_branch_lt side
      have deeper : t.stack.length = s.stack.length + 1 := rfl
      unfold work
      rw [pending, entered, deeper, blockSize, blockSize_append]
      omega
    refine ⟨⟨?_, Nat.le_of_lt less, ?_, rfl⟩, less⟩
    · show s.ahead = t.ahead
      unfold ahead
      rw [entered, pending, courseAll_cons, courseAll_append, told]
    · show JumpFree s.pending → JumpFree t.pending
      rw [entered, pending]
      exact fun free => forall_blockNodes_append.mpr ⟨forall_branch free side, free.tail⟩

/-- Returning from a branch leaves what is ahead. -/
theorem Onward.back {parent : Frame} {others : List Frame} (hs : s.state = .running)
    (ended : s.frame.current = none) (entered : s.stack = parent :: others) :
    Onward s [] { s with frame := parent, stack := others } := by
  let t : Story := { s with frame := parent, stack := others }
  have same : t.pending = s.pending := by
    rw [pending_of_running hs, pending_of_running (s := t) hs]
    unfold rest
    rw [Frame.rest_of_none ended, entered]
    rfl
  have shorter : t.stack.length < s.stack.length := by
    rw [entered, List.length_cons]
    exact Nat.lt_succ_self _
  refine ⟨.of_pending same (Nat.le_of_lt shorter) rfl rfl, ?_⟩
  show t.work < s.work
  unfold work
  rw [same]
  omega

/-- The story has come to its end, and there is nothing ahead. -/
structure Ended (s : Story) : Prop where
  closing : s.state = .closing
  nothing : s.pending = []

/-- The end comes where nothing is ahead. -/
theorem Further.finish (hs : s.state = .running) (ended : s.frame.current = none)
    (bottom : s.stack = []) :
    Further s [] { s with state := .closing } ∧ Ended { s with state := .closing } := by
  let t : Story := { s with state := .closing }
  have nothing : s.rest = [] := by
    unfold rest
    rw [Frame.rest_of_none ended, bottom]
    rfl
  have same : t.pending = s.pending := (pending_of_running hs).symm
  exact ⟨.of_pending same (Nat.le_refl _) rfl rfl, rfl, nothing⟩

/-- A round takes from what is ahead what it presents, and leaves less work unless it
ends the story. -/
theorem further_round (hs : s.state = .running) (free : JumpFree s.pending) :
    Further s s.frame.presenting.toList s.round ∧
      (s.round.Ended ∨ s.round.isOpen ∧ s.round.work < s.work) := by
  rw [pending_of_running hs] at free
  generalize hr : s.round = t
  have outcome : Round s t := hr ▸ s.round_cases
  have goesOn {shown : List Node} (hshown : s.frame.presenting.toList = shown)
      (h : Onward s shown t) (isOpen : t.isOpen = true) :
      Further s s.frame.presenting.toList t ∧ (t.Ended ∨ t.isOpen ∧ t.work < s.work) :=
    ⟨hshown ▸ h.toFurther, .inr ⟨isOpen, h.lt⟩⟩
  cases outcome with
  | back ended entered =>
    have silent : s.frame.presenting.toList = [] := by simp [Frame.presenting, ended]
    exact goesOn silent (.back hs ended entered) (isOpen_of_running hs)
  | finish ended bottom =>
    have silent : s.frame.presenting.toList = [] := by simp [Frame.presenting, ended]
    obtain ⟨further, ends⟩ := Further.finish hs ended bottom
    exact ⟨silent ▸ further, .inl ends⟩
  | label here kind =>
    have silent : s.frame.presenting.toList = [] := by simp [Frame.presenting, here, kind]
    exact goesOn silent (.past hs here (pending_of_running hs) rfl rfl (course_label _ kind))
      (isOpen_of_running hs)
  -- The node at hand is among those pending, and none of these is a jump.
  | jump here kind => exact absurd kind (rest_of_some here ▸ free).head
  | miss here kind => exact absurd kind (rest_of_some here ▸ free).head
  | enter here kind =>
    have silent : s.frame.presenting.toList = [] := by simp [Frame.presenting, here, kind]
    exact goesOn silent (.enter hs here kind) (isOpen_enterBranch _ hs)
  | @present n here notLabel notGoto notConditional =>
    have shows : s.frame.presenting.toList = [n] := by
      simp [Frame.presenting, here, notLabel, notGoto, notConditional]
    obtain ⟨behind, stack, told, root, isOpen⟩ := dispatch_past n hs
    have course := course_presented notConditional notLabel s.narration
    rw [← told] at course
    exact goesOn shows (.past hs here behind stack root course) isOpen

end Story

end VisualNovel
