import VisualNovel.Proofs.Player.Narration
import VisualNovel.Play.Pump
import Mathlib.Logic.Relation

/-!
# The story behind a player

The story of a player is what is left of it without setup, presentation and clock: the
state, the place in the script with the places to return to, and the narration.
`Story.round` is one round of the loop on stories, `Round` lists its outcomes, and
`Leads` is any number of rounds with pauses passed over.

Rounds are a function of the story, so of two stories the same one leads to, one leads
to the other (`Leads.total`); a waiting story leads nowhere, which makes it the only
wait there is (`Leads.unique`).
-/

namespace VisualNovel

/-- What is told of a player: all but its setup, its presentation and its clocks. -/
structure Story where
  state : PlayerState
  root : Block
  frame : Frame
  /-- Places to return to, the innermost first. -/
  stack : List Frame
  narration : Narration

/-- The story of a player. -/
def Player.story (p : Player) : Story :=
  ⟨p.state, p.root, p.frame, p.stack, p.session.narration⟩

/-- The state without its clocks: a pause counts as going on, and the end as reached
from when it begins. -/
def PlayerState.untimed : PlayerState → PlayerState
  | .delaying _ => .running
  | .terminated => .closing
  | state => state

/-- An answer to a line or a choice. -/
inductive Reply
  | proceed
  | choose (index : Nat)
  deriving DecidableEq, Repr

/-- The reply as it is fed to a player. -/
def Reply.answer : Reply → Answer
  | .proceed => .proceed
  | .choose index => .choose index

/-- The narration before any node. -/
def Narration.empty : Narration := ⟨.empty, [], "", "", []⟩

namespace Story

/-- The story without its clocks. -/
def untimed (s : Story) : Story := { s with state := s.state.untimed }

/-- Moves the cursor to the next place. -/
def advanceFrame (s : Story) : Story := { s with frame := s.frame.advance }

/-- Moves the cursor to a node of the root; nothing is left to return to. -/
def jump (s : Story) (index : Nat) : Story :=
  { s with stack := [], frame := ⟨s.root, index, []⟩ }

/-- Enters the branch that the condition of the current node picks. -/
def enterBranch (s : Story) (n : Node) : Story :=
  let side := conditionHolds s.narration.vars n
  if (n.branch side).isEmpty then s.advanceFrame
  else
    { s with
      frame := ⟨n.branch side, 0, s.frame.path ++ [⟨s.frame.pc, side⟩]⟩
      stack := s.frame.advance :: s.stack }

/-- Goes on after a node was presented. -/
def follow (s : Story) : Next → Story
  | .proceed => s.advanceFrame
  | .waitClick => { s with state := .waitingForClick }
  | .waitChoice => { s with state := .waitingForChoice }
  | .delay ms => { s.advanceFrame with state := .delaying ms }

/-- Presents the current node and goes on. -/
def dispatch (s : Story) (n : Node) : Story :=
  { s with narration := s.narration.present n }.follow n.next

/-- One round of the loop. -/
def round (s : Story) : Story :=
  match s.frame.current with
  | none =>
    match s.stack with
    | parent :: others => { s with frame := parent, stack := others }
    | [] => { s with state := .closing }
  | some n =>
    match n.kind with
    | .label => s.advanceFrame
    | .goto =>
      match labelIndex s.root n.jumpTarget with
      | some i => s.jump i
      | none => s.advanceFrame
    | .conditional => s.enterBranch n
    | _ => s.dispatch n

/-- The next story, if the story goes on by itself. -/
def next? (s : Story) : Option Story :=
  if s.state = .running then some s.round.untimed else none

/-- A story leads to another: by any number of rounds, pauses passed over. -/
def Leads : Story → Story → Prop := Relation.ReflTransGen fun s t => s.next? = some t

/-- Whether the story waits for a reply. -/
def isWaiting (s : Story) : Bool := s.state = .waitingForClick || s.state = .waitingForChoice

/-- Leaves the node the story waits at. -/
def leave (s : Story) : Story := { s with state := .running, frame := s.frame.advance }

/-- The story once its choice is answered and no longer offered. -/
def answered (s : Story) : Story := { s with narration := { s.narration with choices := [] } }

/-- The root node a choice target leads to: that of the label after a star. -/
def targetIndex (s : Story) (target : String) : Option Nat :=
  match target.toList with
  | '*' :: name => labelIndex s.root (String.ofList name)
  | _ => none

/-- Moves the cursor where a choice target leads, or on if it leads nowhere. -/
def land (s : Story) (target : String) : Story :=
  match s.targetIndex target with
  | some i => s.jump i
  | none => s.advanceFrame

/-- Goes on after a choice, at the label the target names or after the choice. -/
def choose (s : Story) (target : String) : Story :=
  { s.answered.land target with state := .running }

/-- What a reply does to a story; one that does not fit the wait does nothing. -/
def reply (s : Story) : Reply → Story
  | .proceed => if s.state = .waitingForClick then s.leave else s
  | .choose index =>
    if s.state = .waitingForChoice then
      match s.frame.current.bind fun n => n.options[index]? with
      | some o => s.choose o.target
      | none => s
    else s

/-- The story a player starts with at a node of the root: the nodes before it are
applied instantly to the narration of no node. -/
def opening (scenes : Block) (index : Nat) : Story where
  state := .running
  root := scenes
  frame := ⟨scenes, min index (scenes.length - 1), []⟩
  stack := []
  narration := Narration.empty.replayAll (scenes.take (min index (scenes.length - 1)))

/-! ## The rounds there are -/

/-- The outcomes of a round. -/
inductive Round (s : Story) : Story → Prop
  /-- At the end of a branch the story returns to the place after its conditional. -/
  | back {parent : Frame} {others : List Frame} (ended : s.frame.current = none)
      (entered : s.stack = parent :: others) :
      Round s { s with frame := parent, stack := others }
  | finish (ended : s.frame.current = none) (bottom : s.stack = []) :
      Round s { s with state := .closing }
  | label {n : Node} (here : s.frame.current = some n) (kind : n.kind = .label) :
      Round s s.advanceFrame
  | jump {n : Node} {i : Nat} (here : s.frame.current = some n) (kind : n.kind = .goto)
      (found : labelIndex s.root n.jumpTarget = some i) : Round s (s.jump i)
  /-- A jump to no label is passed over. -/
  | miss {n : Node} (here : s.frame.current = some n) (kind : n.kind = .goto)
      (lost : labelIndex s.root n.jumpTarget = none) : Round s s.advanceFrame
  | enter {n : Node} (here : s.frame.current = some n) (kind : n.kind = .conditional) :
      Round s (s.enterBranch n)
  | present {n : Node} (here : s.frame.current = some n) (notLabel : n.kind ≠ .label)
      (notGoto : n.kind ≠ .goto) (notConditional : n.kind ≠ .conditional) :
      Round s (s.dispatch n)

/-- Every round is one of the outcomes. -/
theorem round_cases (s : Story) : Round s s.round := by
  unfold round
  split
  next ended =>
    split
    next parent others entered => exact .back ended entered
    next bottom => exact .finish ended bottom
  next n here =>
    split
    next kind => exact .label here kind
    next kind =>
      split
      next i found => exact .jump here kind found
      next lost => exact .miss here kind lost
    next kind => exact .enter here kind
    next notLabel notGoto notConditional =>
      exact .present here notLabel notGoto notConditional

/-- A node that makes the player wait or pause is presented by the round. -/
theorem round_eq_dispatch {s : Story} {n : Node} (here : s.frame.current = some n)
    (hn : n.next ≠ .proceed) : s.round = s.dispatch n := by
  unfold Node.next at hn
  unfold round
  rw [here]
  dsimp only
  cases hk : n.kind with
  | label => simp [hk] at hn
  | goto => simp [hk] at hn
  | conditional => simp [hk] at hn
  | _ => rfl

/-! ## Where a story leads -/

theorem untimed_of_isWaiting {s : Story} (h : s.isWaiting = true) : s.untimed = s := by
  obtain ⟨state, root, frame, stack, narration⟩ := s
  cases state with
  | delaying ms => exact absurd h (by simp [isWaiting])
  | terminated => exact absurd h (by simp [isWaiting])
  | _ => rfl

/-- A running story has no clock. -/
theorem untimed_of_running {s : Story} (h : s.state = .running) : s.untimed = s := by
  obtain ⟨state, root, frame, stack, narration⟩ := s
  cases h
  rfl

theorem next?_of_isWaiting {s : Story} (h : s.isWaiting = true) : s.next? = none := by
  unfold next?
  rw [if_neg]
  intro hr
  simp [isWaiting, hr] at h

/-- A round leads on, with the pause after it passed over. -/
theorem Leads.round {s : Story} (h : s.state = .running) : Leads s s.round.untimed :=
  Relation.ReflTransGen.single (by simp [next?, h])

/-- Of the stories one leads to, one leads to the other. -/
theorem Leads.total {s t u : Story} (ht : Leads s t) (hu : Leads s u) :
    Leads t u ∨ Leads u t :=
  Relation.ReflTransGen.total_of_right_unique
    (fun _ _ _ h₁ h₂ => Option.some.inj (h₁.symm.trans h₂)) ht hu

/-- A waiting story leads nowhere else. -/
theorem Leads.eq_of_isWaiting {s t : Story} (h : Leads s t) (hs : s.isWaiting = true) :
    t = s := by
  rcases h.cases_head with rfl | ⟨u, hu, -⟩
  · rfl
  · rw [next?_of_isWaiting hs] at hu
    exact absurd hu (by simp)

/-- A story leads to one wait at most. -/
theorem Leads.unique {s t u : Story} (ht : Leads s t) (hu : Leads s u)
    (wt : t.isWaiting = true) (wu : u.isWaiting = true) : t = u := by
  rcases ht.total hu with h | h
  · exact (h.eq_of_isWaiting wt).symm
  · exact h.eq_of_isWaiting wu

end Story

end VisualNovel
