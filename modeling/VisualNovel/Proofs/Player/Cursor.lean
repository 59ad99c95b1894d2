import VisualNovel.Proofs.Player.Tracking
import VisualNovel.Proofs.Script.Places

/-!
# The cursor and its return points

The cursor and the places to return to are positions of one tree, each entered from
the one below it. `Cursor` says so by recursion along the stack: the lowest frame is on
the root block, and every other frame is on a branch of the conditional just before
the place of the frame under it. `Story.Coherent` adds what a wait is: a waiting story
has just presented the node it waits at.

> `Coherent.round`, `Coherent.leads`: rounds keep a story coherent.

> `Coherent.leave`, `Coherent.choose`: so do answers.

The depth of the cursor is then the length of its path (`Cursor.length_path`), and the
tree has conditionals nested that deep (`Cursor.length_add_nesting`).
-/

namespace VisualNovel

namespace Script

mutual

/-- How deep conditionals nest at a node, itself counted. Branches of other nodes hold
nothing that is played. -/
def nestingNode : Node → Nat
  | ⟨_, _, kind, _, _, _, _, _, _, t, e⟩ =>
    if kind = .conditional then 1 + max (nesting t) (nesting e) else 0

/-- How deep conditionals nest in a block. -/
def nesting : Block → Nat
  | [] => 0
  | n :: ns => max (nestingNode n) (nesting ns)

end

/-- No node of a block nests deeper than the block. -/
theorem nestingNode_le_nesting {n : Node} {b : Block} (h : n ∈ b) :
    nestingNode n ≤ nesting b := by
  induction b with
  | nil => exact absurd h List.not_mem_nil
  | cons m ms ih =>
    unfold nesting
    rcases List.mem_cons.mp h with rfl | h
    · exact Nat.le_max_left _ _
    · exact Nat.le_trans (ih h) (Nat.le_max_right _ _)

/-- A branch of a conditional nests less deep than the conditional. -/
theorem nesting_branch_lt {n : Node} (h : n.kind = .conditional) (side : Bool) :
    nesting (n.branch side) < nestingNode n := by
  obtain ⟨_, _, kind, _, _, _, _, _, _, t, e⟩ := n
  cases h
  unfold nestingNode
  cases side with
  | true =>
    show nesting t < _
    simp only [if_true]
    omega
  | false =>
    show nesting e < _
    simp only [if_true]
    omega

end Script

/-- A label that is found is a node of the root. -/
theorem labelIndex_lt {root : Block} {name : String} {i : Nat}
    (h : labelIndex root name = some i) : i < root.length := by
  unfold labelIndex at h
  obtain ⟨⟨n, j⟩, hf, rfl⟩ := Option.map_eq_some_iff.mp h
  rw [List.findRev?_eq_findRev?TR] at hf
  have hm := List.mem_reverse.mp (List.mem_of_find?_eq_some hf)
  rw [List.mk_mem_zipIdx_iff_getElem?] at hm
  exact (List.getElem?_eq_some_iff.mp hm).1

/-! ## Frames -/

namespace Frame

/-- A frame is a place of the tree: its block is the one at its path, and its index not
past the end of it. -/
structure Fits (root : Block) (f : Frame) : Prop where
  resolves : Script.resolve root f.path = some f.block
  pc_le : f.pc ≤ f.block.length

/-- A frame was entered from the conditional just before the place of another. -/
structure EnteredFrom (outer inner : Frame) : Prop where
  pos : 0 < outer.pc
  conditional : ∃ n side, outer.block[outer.pc - 1]? = some n ∧ n.kind = .conditional ∧
    inner.path = outer.path ++ [⟨outer.pc - 1, side⟩]

/-- A frame has a current node unless its place is the end of its block. -/
theorem current_isSome_iff {f : Frame} : f.current.isSome ↔ f.pc < f.block.length := by
  unfold current
  simp

theorem lt_of_current {f : Frame} {n : Node} (h : f.current = some n) :
    f.pc < f.block.length := by
  rw [← current_isSome_iff, h]
  rfl

/-- Past a node a frame is still a place of the tree. -/
theorem Fits.advance {root : Block} {f : Frame} (h : f.Fits root)
    (hlt : f.pc < f.block.length) : f.advance.Fits root :=
  ⟨h.resolves, hlt⟩

/-- Where a frame was entered from is a matter of its path. -/
theorem EnteredFrom.of_path {outer inner inner' : Frame} (h : outer.EnteredFrom inner)
    (hp : inner'.path = inner.path) : outer.EnteredFrom inner' :=
  ⟨h.pos, hp ▸ h.conditional⟩

end Frame

/-- The block of a frame is a branch of the conditional it was entered from. -/
theorem Frame.EnteredFrom.block {root : Block} {outer inner : Frame}
    (h : outer.EnteredFrom inner) (below : outer.Fits root) (fits : inner.Fits root) :
    ∃ n side, n ∈ outer.block ∧ n.kind = .conditional ∧ inner.block = n.branch side := by
  obtain ⟨n, side, hn, kind, path⟩ := h.conditional
  have resolves := fits.resolves
  rw [path, Script.resolve_append, below.resolves, Option.bind_some, hn] at resolves
  exact ⟨n, side, List.mem_of_getElem? hn, kind, (Option.some.inj resolves).symm⟩

/-- A frame on top of its places to return to, the innermost first. -/
inductive Cursor (root : Block) : Frame → List Frame → Prop
  | bottom {f : Frame} (fits : f.Fits root) (path : f.path = []) : Cursor root f []
  | inner {f outer : Frame} {rest : List Frame} (fits : f.Fits root)
      (entered : outer.EnteredFrom f) (below : Cursor root outer rest) :
      Cursor root f (outer :: rest)

namespace Cursor

variable {root : Block} {f : Frame} {stack : List Frame}

/-- The cursor is a place of the tree. -/
theorem fits (h : Cursor root f stack) : f.Fits root := by
  cases h with
  | bottom fits _ => exact fits
  | inner fits _ _ => exact fits

/-- The place in the block is free to move. -/
theorem move {g : Frame} (h : Cursor root f stack) (hg : g.Fits root)
    (hp : g.path = f.path) : Cursor root g stack := by
  cases h with
  | bottom _ path => exact .bottom hg (hp.trans path)
  | inner _ entered below => exact .inner hg (entered.of_path hp) below

/-- Past a node the cursor keeps its places to return to. -/
theorem advance {n : Node} (h : Cursor root f stack) (here : f.current = some n) :
    Cursor root f.advance stack :=
  h.move (h.fits.advance (Frame.lt_of_current here)) rfl

/-- Any place of the root block has nothing to return to. -/
theorem atRoot {i : Nat} (h : i ≤ root.length) : Cursor root ⟨root, i, []⟩ [] :=
  .bottom ⟨rfl, h⟩ rfl

/-- Entering a branch leaves the place after the conditional to return to. -/
theorem enter {n : Node} (h : Cursor root f stack) (here : f.current = some n)
    (hk : n.kind = .conditional) (side : Bool) :
    Cursor root ⟨n.branch side, 0, f.path ++ [⟨f.pc, side⟩]⟩ (f.advance :: stack) := by
  have resolves : Script.resolve root (f.path ++ [⟨f.pc, side⟩]) = some (n.branch side) := by
    rw [Script.resolve_append, h.fits.resolves]
    show (f.block[f.pc]?).map _ = _
    rw [show f.block[f.pc]? = some n from here]
    rfl
  exact .inner ⟨resolves, Nat.zero_le _⟩ ⟨Nat.succ_pos _, n, side, here, hk, rfl⟩ (h.advance here)

/-- The cursor is as deep as its path is long. -/
theorem length_path (h : Cursor root f stack) : stack.length = f.path.length := by
  induction h with
  | bottom _ path => rw [path]; rfl
  | inner _ entered _ ih =>
    obtain ⟨n, side, -, -, hp⟩ := entered.conditional
    rw [hp, List.length_cons, ih, List.length_append]
    rfl

/-- Every return point stands for one level of conditionals. -/
theorem length_add_nesting (h : Cursor root f stack) :
    stack.length + Script.nesting f.block ≤ Script.nesting root := by
  induction h with
  | bottom fits path =>
    have := fits.resolves
    rw [path] at this
    rw [← Option.some.inj this]
    simp
  | @inner f outer rest fits entered below ih =>
    obtain ⟨n, side, member, hk, hblock⟩ := entered.block below.fits fits
    have hmem := Script.nestingNode_le_nesting member
    have hlt := Script.nesting_branch_lt hk side
    rw [hblock, List.length_cons]
    omega

end Cursor

/-! ## Coherent stories -/

namespace Story

/-- The current node, after which the story goes on so, is the one presented last. -/
def Presented (s : Story) (next : Next) : Prop :=
  ∃ n t, s.frame.current = some n ∧ n.next = next ∧ s.narration = Narration.present n t

/-- The cursor is a place of the tree, and a wait is one at the node presented last. -/
structure Coherent (s : Story) : Prop where
  cursor : Cursor s.root s.frame s.stack
  atClick : s.state = .waitingForClick → s.Presented .waitClick
  atChoice : s.state = .waitingForChoice → s.Presented .waitChoice

namespace Coherent

variable {s : Story}

/-- Where nothing waits, the cursor is all. -/
theorem of_not_waiting (h : Cursor s.root s.frame s.stack) (hw : s.isWaiting = false) :
    s.Coherent := by
  refine ⟨h, fun hs => ?_, fun hs => ?_⟩
  · simp [isWaiting, hs] at hw
  · simp [isWaiting, hs] at hw

theorem untimed_iff : s.untimed.Coherent ↔ s.Coherent := by
  obtain ⟨state, root, frame, stack, narration⟩ := s
  cases state with
  | delaying ms =>
    exact ⟨fun h => of_not_waiting h.cursor rfl, fun h => of_not_waiting h.cursor rfl⟩
  | terminated =>
    exact ⟨fun h => of_not_waiting h.cursor rfl, fun h => of_not_waiting h.cursor rfl⟩
  | _ => exact Iff.rfl

/-- Entering a branch of the conditional at the cursor keeps a story coherent. -/
theorem enterBranch {n : Node} (h : s.Coherent) (hs : s.state = .running)
    (here : s.frame.current = some n) (hk : n.kind = .conditional) :
    (s.enterBranch n).Coherent := by
  unfold Story.enterBranch
  dsimp only
  split
  next => exact of_not_waiting (h.cursor.advance here) (by simp [isWaiting, advanceFrame, hs])
  next => exact of_not_waiting (h.cursor.enter here hk _) (by simp [isWaiting, hs])

/-- A node that is presented is the one that a story then waits at. -/
theorem dispatch {n : Node} (h : s.Coherent) (hs : s.state = .running)
    (here : s.frame.current = some n) : (s.dispatch n).Coherent := by
  unfold Story.dispatch
  cases hn : n.next with
  | proceed =>
    exact of_not_waiting (h.cursor.advance here) (by simp [isWaiting, follow, advanceFrame, hs])
  | waitClick =>
    exact ⟨h.cursor, fun _ => ⟨n, _, here, hn, rfl⟩, fun hs => absurd hs (by simp [follow])⟩
  | waitChoice =>
    exact ⟨h.cursor, fun hs => absurd hs (by simp [follow]), fun _ => ⟨n, _, here, hn, rfl⟩⟩
  | delay ms => exact of_not_waiting (h.cursor.advance here) rfl

/-- A round keeps a story coherent. -/
theorem round (h : s.Coherent) (hs : s.state = .running) : s.round.Coherent := by
  have still {t : Story} (ht : t.state = s.state) : t.isWaiting = false := by
    simp [isWaiting, ht, hs]
  generalize hr : s.round = t
  have outcome : Round s t := hr ▸ s.round_cases
  cases outcome with
  | back _ entered =>
    have below := h.cursor
    rw [entered] at below
    cases below with
    | inner _ _ below => exact of_not_waiting below (still rfl)
  | finish => exact of_not_waiting h.cursor rfl
  | label here => exact of_not_waiting (h.cursor.advance here) (still rfl)
  | jump _ _ found =>
    exact of_not_waiting (.atRoot (Nat.le_of_lt (labelIndex_lt found))) (still rfl)
  | miss here => exact of_not_waiting (h.cursor.advance here) (still rfl)
  | enter here kind => exact h.enterBranch hs here kind
  | present here => exact h.dispatch hs here

/-- Wherever a coherent story leads is coherent. -/
theorem leads {t : Story} (h : s.Coherent) (hl : Leads s t) : t.Coherent := by
  induction hl with
  | refl => exact h
  | @tail u v _ hn ih =>
    unfold next? at hn
    split at hn
    next hs =>
      rw [← Option.some.inj hn]
      exact untimed_iff.mpr (ih.round hs)
    next => exact absurd hn (by simp)

/-- A line that is left is passed. -/
theorem leave (h : s.Coherent) (hs : s.state = .waitingForClick) : s.leave.Coherent := by
  obtain ⟨n, -, here, -⟩ := h.atClick hs
  exact of_not_waiting (h.cursor.advance here) rfl

/-- A target that is chosen is a place of the root, and without one the choice is passed. -/
theorem choose (h : s.Coherent) (hs : s.state = .waitingForChoice) (target : String) :
    (s.choose target).Coherent := by
  obtain ⟨n, -, here, -⟩ := h.atChoice hs
  unfold Story.choose land
  split
  next found =>
    unfold targetIndex at found
    split at found
    next => exact of_not_waiting (.atRoot (Nat.le_of_lt (labelIndex_lt found))) rfl
    next => exact absurd found (by simp)
  next => exact of_not_waiting (h.cursor.advance here) rfl

/-- A story begins at the bottom. -/
theorem opening (scenes : Block) (index : Nat) : (Story.opening scenes index).Coherent := by
  refine of_not_waiting (.atRoot ?_) rfl
  show min index (scenes.length - 1) ≤ scenes.length
  omega

end Coherent

end Story

end VisualNovel
