import VisualNovel.Proofs.Player.Performance
import VisualNovel.Proofs.Player.Reachable
import VisualNovel.Proofs.Script.Parsed

/-!
# The places a saved session is taken up at

The frames of a run are nested: each is in a branch of the conditional just before the place
of the frame below it. A save file names every frame by itself, by a path and an index, and
each is looked up in the script by itself. Nesting is a matter of the session that was saved:
what a run of the script has saved is nested when it is taken up, and any other file is taken
up at the places it names, nested or not.

> `resolveFrame_cases`: what a look-up finds is the place that was asked for.

> `restore_places`: a session goes on at the saved places, and these are nested if the session
> that was saved ran on the same script.
-/

namespace VisualNovel

namespace Script

variable {P : Node → Bool → Prop} {scenes b : Block} {path : BlockPath}

/-- Every step of a path goes through a node with a property, seen with the side it enters. -/
def Through (P : Node → Bool → Prop) : Block → BlockPath → Prop
  | _, [] => True
  | scenes, step :: path => ∃ n, scenes[step.index]? = some n ∧ P n step.side ∧
      Through P (n.branch step.side) path

theorem Through.concat {step : BranchStep} {n : Node} (h : Through P scenes path)
    (resolves : resolve scenes path = some b) (here : b[step.index]? = some n)
    (hP : P n step.side) : Through P scenes (path ++ [step]) := by
  induction path generalizing scenes with
  | nil =>
    obtain rfl := Option.some.inj resolves
    exact ⟨n, here, hP, trivial⟩
  | cons first path ih =>
    obtain ⟨m, hm, holds, further⟩ := h
    rw [resolve_cons, hm, Option.bind_some] at resolves
    exact ⟨m, hm, holds, ih further resolves⟩

/-- What holds at every depth of a block holds of its nodes and in their branches. -/
theorem forall_of_mem {Q : Node → Prop} (h : ∀ m ∈ Node.blockNodes scenes, Q m) {n : Node}
    (hn : n ∈ scenes) (side : Bool) : Q n ∧ ∀ m ∈ Node.blockNodes (n.branch side), Q m := by
  induction scenes with
  | nil => exact absurd hn List.not_mem_nil
  | cons first scenes ih =>
    rcases List.mem_cons.mp hn with rfl | hn
    · exact ⟨(Node.forall_blockNodes_cons.mp h).1, Node.forall_branch h side⟩
    · exact ih (Node.forall_blockNodes_cons.mp h).2.2.2 hn

/-- Only conditionals hold anything in their branches. -/
def BranchesAtConditionals (scenes : Block) : Prop :=
  ∀ n ∈ Node.blockNodes scenes, n.kind ≠ .conditional → n.thenBranch = [] ∧ n.elseBranch = []

/-- So it is in every script that was read. -/
theorem branchesAtConditionals_parse (source : List Char) :
    BranchesAtConditionals (parse source) := by
  intro n hn
  rcases canonical_or_nameless source n hn with canonical | nameless
  · exact canonical.tidy.branches
  · exact nameless.tidy.branches

/-- A path that resolves goes through conditionals as long as there is something where it
enters. -/
theorem through_of_resolve (resolves : resolve scenes path = some b)
    (only : BranchesAtConditionals scenes) :
    Through (fun n side => n.branch side ≠ [] → n.kind = .conditional) scenes path := by
  induction path generalizing scenes with
  | nil => trivial
  | cons step path ih =>
    rw [resolve_cons] at resolves
    obtain ⟨n, hn, resolves⟩ := Option.bind_eq_some_iff.mp resolves
    obtain ⟨here, inside⟩ := forall_of_mem only (List.mem_of_getElem? hn) step.side
    refine ⟨n, hn, fun filled => ?_, ih resolves inside⟩
    by_contra other
    obtain ⟨noThen, noElse⟩ := here other
    apply filled
    cases step.side with
    | true => exact noThen
    | false => exact noElse

end Script

/-- The frames of a run go through conditionals only. -/
theorem Cursor.through {root : Block} {f : Frame} {stack : List Frame}
    (h : Cursor root f stack) :
    ∀ g ∈ f :: stack, Script.Through (fun n _ => n.kind = .conditional) root g.path := by
  induction h with
  | bottom _ path =>
    intro g hg
    obtain rfl := List.mem_singleton.mp hg
    rw [path]
    trivial
  | @inner f outer rest _ entered below ih =>
    intro g hg
    rcases List.mem_cons.mp hg with rfl | hg
    · obtain ⟨n, side, here, kind, path⟩ := entered.conditional
      rw [path]
      exact (ih outer List.mem_cons_self).concat below.fits.resolves here kind
    · exact ih g hg

namespace Player

variable {p q r : Player} {s : Snapshot}

/-- The frames of a player from the root inwards, as a run nests them: every path goes through
conditionals, it is as long as the frame is deep, and each frame is in a branch of the
conditional just before the place of the one below it. -/
structure Nested (p : Player) : Prop where
  through : ∀ f ∈ p.frames, Script.Through (fun n _ => n.kind = .conditional) p.root f.path
  depth : ∀ i (f : Frame), p.frames[i]? = some f → f.path.length = i
  entered : ∀ i (outer inner : Frame), p.frames[i]? = some outer → p.frames[i + 1]? = some inner →
    outer.EnteredFrom inner

theorem nested_of_cursor (h : Cursor p.root p.frame p.stack) : p.Nested where
  through := fun f hf => h.through f (List.mem_reverse.mp hf)
  depth := fun _ _ hf => (h.frames_fit hf).2
  entered := fun _ _ _ ho hi => h.frames_entered ho hi

/-! ## Looking places up -/

theorem resolveFrame_cases {root : Block} {f : Frame} {place : FrameSnapshot}
    (h : resolveFrame root place = .ok f) : FrameSnapshot.of f = place ∧ f.Fits root := by
  unfold resolveFrame at h
  split at h
  next => contradiction
  next block found =>
    split at h
    next => contradiction
    next within =>
      obtain rfl := Except.ok.inj h
      exact ⟨rfl, found, Nat.not_lt.mp within⟩

theorem mapM_resolveFrame_cases {root : Block} {places : List FrameSnapshot}
    {frames : List Frame} (h : places.mapM (resolveFrame root) = .ok frames) :
    frames.map FrameSnapshot.of = places ∧ ∀ f ∈ frames, f.Fits root := by
  induction places generalizing frames with
  | nil =>
    obtain rfl := Except.ok.inj h
    exact ⟨rfl, fun f hf => absurd hf List.not_mem_nil⟩
  | cons place places ih =>
    rw [List.mapM_cons] at h
    cases found : resolveFrame root place with
    | error => simp [found, bind, Except.bind] at h
    | ok f =>
      cases others : places.mapM (resolveFrame root) with
      | error => simp [found, others, bind, Except.bind] at h
      | ok fs =>
        rw [found, others] at h
        obtain rfl := Except.ok.inj h
        obtain ⟨here, fits⟩ := resolveFrame_cases found
        obtain ⟨there, fit⟩ := ih others
        exact ⟨by rw [List.map_cons, here, there], List.forall_mem_cons.mpr ⟨fits, fit⟩⟩

theorem takenUp_places (h : p.takenUp s = .ok q) :
    q.root = p.root ∧ FrameSnapshot.of q.frame = s.frame ∧
      q.stack.reverse.map FrameSnapshot.of = s.stack ∧ ∀ f ∈ q.frames, f.Fits p.root := by
  unfold takenUp at h
  cases found : resolveFrame p.root s.frame with
  | error => simp [found, bind, Except.bind] at h
  | ok frame =>
    cases others : s.stack.mapM (resolveFrame p.root) with
    | error => simp [found, others, bind, Except.bind] at h
    | ok stack =>
      rw [found, others] at h
      obtain rfl := Except.ok.inj h
      obtain ⟨here, fits⟩ := resolveFrame_cases found
      obtain ⟨there, fit⟩ := mapM_resolveFrame_cases others
      refine ⟨rfl, here, ?_, fun f hf => ?_⟩
      · show stack.reverse.reverse.map FrameSnapshot.of = s.stack
        rw [List.reverse_reverse, there]
      · rcases List.mem_cons.mp (List.mem_reverse.mp hf) with rfl | hf
        · exact fits
        · exact fit f (List.mem_reverse.mp hf)

/-- What a session on the same script has saved is taken up where it was. -/
theorem takenUp_snapshot (h : p.story.Coherent) (hroot : q.root = p.root) :
    ∃ t, q.takenUp p.snapshot = .ok t ∧ t.root = q.root ∧ t.frame = p.frame ∧
      t.stack = p.stack := by
  have hframe : resolveFrame q.root p.snapshot.frame = .ok p.frame := by
    rw [hroot]
    exact resolveFrame_of h.cursor.fits
  have hstack : p.snapshot.stack.mapM (resolveFrame q.root) = .ok p.stack.reverse := by
    rw [hroot]
    exact mapM_resolveFrame _ fun f hf => h.cursor.fits_of_mem f (List.mem_reverse.mp hf)
  unfold takenUp
  rw [hframe]
  dsimp only [bind, Except.bind]
  rw [hstack]
  exact ⟨_, rfl, rfl, rfl, List.reverse_reverse p.stack⟩

/-! ## Restoring -/

/-- A session that is restored goes on from the frames the file names, in their order, each
with the block its path leads to and an index not past its end. A path goes through
conditionals wherever it enters something, in a script in which only they hold anything. What
another session on the script has saved can always be restored, and its frames are nested. -/
theorem restore_places (p : Player) (s : Snapshot) :
    (∀ r, p.restore s = .ok r →
      ∃ q, p.takenUp s = .ok q ∧ r = (if q.state = .running then q.run else q) ∧
        q.root = p.root ∧ FrameSnapshot.of q.frame = s.frame ∧
          q.stack.reverse.map FrameSnapshot.of = s.stack ∧
            ∀ f ∈ q.frames, (Script.resolve p.root f.path = some f.block ∧
              f.pc ≤ f.block.length) ∧
                (Script.BranchesAtConditionals p.root →
                  Script.Through (fun n side => n.branch side ≠ [] → n.kind = .conditional)
                    p.root f.path)) ∧
      ∀ t : Player, t.Reachable → t.root = p.root → s = t.snapshot →
        ∃ q, p.takenUp s = .ok q ∧
          p.restore s = .ok (if q.state = .running then q.run else q) ∧ q.Nested := by
  refine ⟨fun r hr => ?_, fun t reachable hroot saved => ?_⟩
  · rw [restore_eq] at hr
    cases taken : p.takenUp s with
    | error =>
      rw [taken] at hr
      contradiction
    | ok q =>
      rw [taken] at hr
      obtain ⟨hroot, here, there, fit⟩ := takenUp_places taken
      refine ⟨q, rfl, (Except.ok.inj hr).symm, hroot, here, there, fun f hf => ?_⟩
      have fits := fit f hf
      exact ⟨⟨fits.resolves, fits.pc_le⟩, Script.through_of_resolve fits.resolves⟩
  · obtain ⟨q, taken, qroot, qframe, qstack⟩ := takenUp_snapshot reachable.coherent hroot.symm
    rw [← saved] at taken
    refine ⟨q, taken, ?_, nested_of_cursor ?_⟩
    · rw [restore_eq, taken]
      rfl
    · rw [qroot, qframe, qstack, ← hroot]
      exact reachable.coherent.cursor

/-- A line in a branch, and one behind it. -/
def aside : Block := [.conditional ["a", "==", "a"] [.dialogue "" "in"] [], .dialogue "" "after"]

/-- What was saved in the branch is taken up in the branch, with the place behind it to return
to. -/
theorem restore_places_aside :
    let p := (new ⟨fun _ _ => none, {}, {}⟩ .accepting).start aside 0
    p.Reachable ∧ p.frame.path = [⟨0, true⟩] ∧
      ∃ q, p.takenUp p.snapshot = .ok q ∧ q.Nested := by
  intro p
  have reachable : p.Reachable := (Reachable.new _ _).start aside 0
  obtain ⟨q, taken, -, nested⟩ := (restore_places p p.snapshot).2 p reachable rfl rfl
  exact ⟨reachable, by decide +kernel, q, taken, nested⟩

/-- A file that names the branch but no place to return to is taken up as well, and there is
no way out of the branch. -/
theorem takenUp_unnested :
    let p := (new ⟨fun _ _ => none, {}, {}⟩ .accepting).start aside 0
    let s := { p.snapshot with frame := ⟨[⟨0, true⟩], 0⟩, stack := [] }
    ∃ q r, p.takenUp s = .ok q ∧ p.restore s = .ok r ∧ q.frame.path = [⟨0, true⟩] ∧
      q.stack = [] ∧ ¬q.Nested := by
  intro p s
  have resolved : resolveFrame p.root s.frame = .ok ⟨[.dialogue "" "in"], 0, [⟨0, true⟩]⟩ := rfl
  obtain ⟨q, taken⟩ : ∃ q, p.takenUp s = .ok q := by
    unfold takenUp
    rw [resolved]
    exact ⟨_, rfl⟩
  obtain ⟨-, here, there, -⟩ := takenUp_places taken
  have path : q.frame.path = [⟨0, true⟩] := congrArg FrameSnapshot.path here
  have stack : q.stack = [] := by
    have none : q.stack.reverse = [] := List.map_eq_nil_iff.mp there
    exact List.reverse_eq_nil_iff.mp none
  refine ⟨q, _, taken, by rw [restore_eq, taken]; rfl, path, stack, fun nested => ?_⟩
  -- The one frame is at depth zero, and its path has a step.
  have atRoot : q.frame.path.length = 0 := nested.depth 0 q.frame (by
    unfold frames
    rw [stack]
    rfl)
  rw [path] at atRoot
  contradiction

end Player

end VisualNovel
