import VisualNovel.Proofs.Player.Narration
import VisualNovel.Proofs.Script.Nodes
import VisualNovel.Player.Control

/-!
# The course of a tree

Without jumps a tree says by its shape alone what is played: its nodes in order, and of
a conditional the branch that the variables pick when it is reached. `Script.courseAll`
is that meaning by recursion on the tree, the nodes presented and the variables left,
and applying a tree instantly follows it:

> `foldl_replayedAll`: `Session.replayedAll` are the nodes that an instant application
> presents.

> `replayAll_course`: they are those of the course, labels apart, and it leaves the
> variables of the course.
-/

namespace VisualNovel

namespace Script

mutual

/-- The nodes that playing a node presents with these variables, and the variables it
leaves. -/
def course (vars : Variables) (n : Node) : List Node × Variables :=
  match n with
  | ⟨_, _, kind, _, _, _, _, _, _, t, e⟩ =>
    if kind = .conditional then
      if conditionHolds vars n then courseAll vars t else courseAll vars e
    else if kind = .label then ([], vars)
    else
      ([n], if kind = .variableSet then assign vars (n.param 0) (n.param 1) (n.param 2) else vars)

/-- The nodes that playing a block presents with these variables, and the variables it
leaves. -/
def courseAll (vars : Variables) : Block → List Node × Variables
  | [] => ([], vars)
  | n :: ns =>
    let here := course vars n
    let after := courseAll here.2 ns
    (here.1 ++ after.1, after.2)

end

variable (vars : Variables) {n : Node}

theorem courseAll_cons (n : Node) (ns : Block) :
    courseAll vars (n :: ns) =
      ((course vars n).1 ++ (courseAll (course vars n).2 ns).1,
        (courseAll (course vars n).2 ns).2) := by
  rw [courseAll]

/-- The course of two blocks is that of the first, and that of the second from there on. -/
theorem courseAll_append (b c : Block) :
    courseAll vars (b ++ c) =
      ((courseAll vars b).1 ++ (courseAll (courseAll vars b).2 c).1,
        (courseAll (courseAll vars b).2 c).2) := by
  induction b generalizing vars with
  | nil => rw [List.nil_append, courseAll, List.nil_append]
  | cons n ns ih => rw [List.cons_append, courseAll_cons, courseAll_cons, ih, List.append_assoc]

/-- A conditional is played as the branch its condition picks. -/
theorem course_conditional (h : n.kind = .conditional) :
    course vars n = courseAll vars (n.branch (conditionHolds vars n)) := by
  obtain ⟨_, _, kind, _, _, _, _, _, _, t, e⟩ := n
  cases h
  rw [course, if_pos rfl]
  unfold Node.branch
  split
  next => rfl
  next => rfl

theorem course_label (h : n.kind = .label) : course vars n = ([], vars) := by
  obtain ⟨_, _, kind, _, _, _, _, _, _, _, _⟩ := n
  cases h
  rw [course]
  rfl

/-- Any other node is presented, and leaves the variables that its presentation leaves. -/
theorem course_presented (hc : n.kind ≠ .conditional) (hl : n.kind ≠ .label) (t : Narration) :
    course t.vars n = ([n], (t.present n).vars) := by
  obtain ⟨_, _, kind, _, _, _, _, _, options, _, _⟩ := n
  rw [course, if_neg hc, if_neg hl]
  congr 1
  unfold Narration.present
  cases kind with
  | choicePrompt =>
    cases options with
    | nil => rfl
    | cons o os => rfl
  | _ => rfl

/-- So does a node that is applied instantly, a label apart. -/
theorem course_replayHere (hc : n.kind ≠ .conditional) (t : Narration) :
    course t.vars n = ([n].filter (·.kind ≠ .label), (t.replayHere n).vars) := by
  by_cases hl : n.kind = .label
  · rw [course_label t.vars hl, List.filter_cons_of_neg (by simp [hl]), Narration.replayHere, hl]
    rfl
  · rw [course_presented hc hl, List.filter_cons_of_pos (by simp [hl]), List.filter_nil]
    congr 1
    unfold Narration.replayHere Narration.present
    cases n.kind with
    | choicePrompt =>
      dsimp only
      split
      next => rfl
      next => rfl
    | _ => rfl

end Script

namespace Session

open Script

mutual

/-- The nodes that applying a tree instantly presents, in their order. -/
def replayed (setup : Setup) (s : Session) (n : Node) : List Node :=
  match n with
  | ⟨_, _, kind, _, _, _, _, _, _, thenBranch, elseBranch⟩ =>
    if kind = .conditional then
      if conditionHolds s.vars n then replayedAll setup s thenBranch
      else replayedAll setup s elseBranch
    else [n]

/-- The nodes that applying a block instantly presents, in their order. -/
def replayedAll (setup : Setup) (s : Session) : Block → List Node
  | [] => []
  | n :: ns => replayed setup s n ++ replayedAll setup (replay setup s n) ns

end

variable (setup : Setup)

mutual

/-- To apply a tree instantly is to present its nodes so, one after the other. -/
theorem foldl_replayed (s : Session) (n : Node) :
    (replayed setup s n).foldl (fun s n => (present setup true n s).session) s =
      replay setup s n := by
  match n with
  | ⟨_, _, kind, _, _, _, _, _, _, thenBranch, elseBranch⟩ =>
    unfold replayed replay
    split
    next =>
      split
      next => exact foldl_replayedAll s thenBranch
      next => exact foldl_replayedAll s elseBranch
    next => rfl

/-- To apply a block instantly is to present its nodes so, one after the other. -/
theorem foldl_replayedAll (s : Session) (b : Block) :
    (replayedAll setup s b).foldl (fun s n => (present setup true n s).session) s =
      replayAll setup s b := by
  match b with
  | [] =>
    unfold replayedAll replayAll
    rfl
  | n :: ns =>
    unfold replayedAll replayAll
    rw [List.foldl_append, foldl_replayed s n, foldl_replayedAll (replay setup s n) ns]

end

mutual

theorem replay_course (s : Session) (n : Node) :
    ((replayed setup s n).filter (·.kind ≠ .label), (replay setup s n).vars) =
      course s.vars n := by
  match n with
  | ⟨id, seq, kind, speaker, text, label, token, params, options, thenBranch, elseBranch⟩ =>
    let n : Node :=
      ⟨id, seq, kind, speaker, text, label, token, params, options, thenBranch, elseBranch⟩
    by_cases hc : kind = .conditional
    · unfold replayed replay course
      rw [if_pos hc, if_pos hc, if_pos hc]
      split
      next => exact replayAll_course s thenBranch
      next => exact replayAll_course s elseBranch
    · unfold replayed replay
      have left : (present setup true n s).session.vars = (s.narration.replayHere n).vars :=
        congrArg Narration.vars (present_instant_narration setup n s)
      rw [if_neg hc, if_neg hc, left]
      exact (course_replayHere (n := n) hc s.narration).symm

/-- Applying a block instantly follows its course. -/
theorem replayAll_course (s : Session) (b : Block) :
    ((replayedAll setup s b).filter (·.kind ≠ .label), (replayAll setup s b).vars) =
      courseAll s.vars b := by
  match b with
  | [] =>
    unfold replayedAll replayAll courseAll
    rfl
  | n :: ns =>
    unfold replayedAll replayAll
    rw [courseAll_cons, ← replay_course s n, ← replayAll_course (replay setup s n) ns,
      List.filter_append]

end

end Session

end VisualNovel
