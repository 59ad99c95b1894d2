import VisualNovel.Proofs.Player.Cursor
import VisualNovel.Proofs.Player.Moves
import VisualNovel.Proofs.Script.Targets

/-!
# Where jumps land

The check of a script walks a tree, the player keeps a cursor and a stack of return
points. What connects them is that the block of the cursor is always the root or a branch
of a conditional within it (`Cursor.within`), so the check has seen every node the player
can come to; and that the table of labels and the report of the check ask for the same
labels, those of the root.

> `labelIndex_spec`: a jump leads to the last label of its name.

> `Moves.coherent`: the cursor stays a place of the script.

> `checked_jumps_land`: a clean report means that every target names a label, and then no
> jump and no option with a star ever misses.
-/

namespace VisualNovel

open Script

/-! ## The last label of a name -/

/-- The node at an index of the root is a label of this name, and no later one is. -/
structure Script.LastLabel (root : Block) (name : String) (i : Nat) : Prop where
  here : ∃ n, root[i]? = some n ∧ n.kind = .label ∧ n.label = name
  last : ∀ j n, i < j → root[j]? = some n → n.kind = .label → n.label ≠ name

/-- An index found is that of the last label of the name. -/
theorem labelIndex_spec {root : Block} {name : String} {i : Nat}
    (h : labelIndex root name = some i) : LastLabel root name i := by
  unfold labelIndex at h
  rw [List.findRev?_eq_find?_reverse, Option.map_eq_some_iff] at h
  obtain ⟨⟨n, k⟩, found, rfl⟩ := h
  obtain ⟨named, before, after, split, unnamed⟩ := List.find?_eq_some_iff_append.mp found
  have whole : root.zipIdx = after.reverse ++ (n, k) :: before.reverse := by
    rw [← List.reverse_inj, split]
    simp
  have entry (j : Nat) : (after.reverse ++ (n, k) :: before.reverse)[j]? =
      root[j]?.map fun m => (m, j) := by
    rw [← whole, List.getElem?_zipIdx, Nat.zero_add]
  obtain ⟨m, here, same⟩ : ∃ m, root[after.length]? = some m ∧ (m, after.length) = (n, k) := by
    rw [← Option.map_eq_some_iff, ← entry, ← List.length_reverse,
      List.getElem?_append_right (Nat.le_refl _), Nat.sub_self]
    rfl
  cases same
  refine ⟨⟨n, here, by simpa using named⟩, fun j l later there kind sameName => ?_⟩
  have later : after.reverse.length < j := by rwa [List.length_reverse]
  have inBefore : (l, j) ∈ before.reverse := by
    obtain ⟨d, rfl⟩ := Nat.exists_eq_add_of_lt later
    have := entry (after.reverse.length + d + 1)
    rw [there, Nat.add_assoc, List.getElem?_append_right (Nat.le_add_right _ _),
      Nat.add_sub_cancel_left, List.getElem?_cons_succ] at this
    exact List.mem_of_getElem? this
  simpa [kind, sameName] using unnamed _ (List.mem_reverse.mp inBefore)

theorem exists_labelIndex {root : Block} {name : String} (h : Names root name) :
    ∃ i, labelIndex root name = some i := by
  obtain ⟨n, member, kind, named⟩ := h
  rw [← Option.isSome_iff_exists]
  unfold labelIndex
  rw [Option.isSome_map, List.findRev?_eq_find?_reverse, List.find?_isSome]
  obtain ⟨j, hj⟩ := List.mem_iff_getElem?.mp member
  exact ⟨(n, j), List.mem_reverse.mpr (List.mk_mem_zipIdx_iff_getElem?.mpr hj), by
    simp [kind, named]⟩

/-! ## The block of the cursor -/

/-- The nodes of the cursor's block are nodes the check walks over. -/
theorem Cursor.within {root : Block} {f : Frame} {stack : List Frame} (h : Cursor root f stack) :
    ∀ n ∈ f.block, Within root n := by
  induction h with
  | @bottom f fits path =>
    have resolves := fits.resolves
    rw [path] at resolves
    rw [← Option.some.inj resolves]
    exact fun n member => .here member
  | inner fits entered below ih =>
    obtain ⟨c, side, member, kind, hblock⟩ := entered.block below.fits fits
    rw [hblock]
    exact fun n inBranch => (ih c member).inside kind inBranch

/-- The node at the cursor of a coherent story is within its script. -/
theorem Story.Coherent.current_within {s : Story} (h : s.Coherent) {n : Node}
    (here : s.frame.current = some n) : Within s.root n :=
  h.cursor.within n (List.mem_of_getElem? here)

/-- A round does not change the script. -/
theorem Story.round_root (s : Story) : s.round.root = s.root := by
  generalize hr : s.round = t
  have outcome : Round s t := hr ▸ s.round_cases
  cases outcome with
  | enter here kind =>
    unfold enterBranch
    dsimp only
    split
    next => rfl
    next => rfl
  | @present n here =>
    unfold dispatch
    cases n.next with
    | _ => rfl
  | _ => rfl

theorem kind_of_waitChoice {n : Node} (h : n.next = .waitChoice) : n.kind = .choicePrompt := by
  unfold Node.next at h
  grind

namespace Player

variable {p q : Player}

/-! ## Moves keep the cursor in the script -/

theorem chosen_story (target : String) : (p.chosen target).story = p.story.choose target := by
  unfold chosen Story.choose Story.land
  rw [show p.story.answered.targetIndex target = p.targetIndex target from rfl]
  dsimp only
  rw [withStage_targetIndex]
  cases p.targetIndex target with
  | none => rfl
  | some i => rfl

/-- A move keeps a story coherent. -/
theorem Move.coherent (h : Move p q) (hp : p.story.Coherent) : q.story.Coherent := by
  cases h with
  | round running =>
    rw [step_story]
    exact hp.round running
  | countDown =>
    rw [← Story.Coherent.untimed_iff, countDown_story]
    exact Story.Coherent.untimed_iff.mpr hp
  | animate => rwa [animate_story]
  | closeTick closing =>
    rw [← Story.Coherent.untimed_iff, closeTick_story _ closing]
    exact Story.Coherent.untimed_iff.mpr hp
  | completeReveal id waiting => rwa [completeReveal_story]
  | left waiting => exact hp.leave waiting
  | chosen target waiting =>
    rw [chosen_story]
    exact hp.choose waiting target
  | takeCues => exact hp

/-- No move changes the script. -/
theorem Move.root (h : Move p q) : q.root = p.root := by
  cases h with
  | round running =>
    show p.step.1.story.root = p.story.root
    rw [step_story, Story.round_root]
  | countDown => exact congrArg Story.root p.countDown_story
  | animate => exact congrArg Story.root p.animate_story
  | closeTick closing => exact congrArg Story.root (p.closeTick_story closing)
  | completeReveal id waiting => rfl
  | left waiting => rfl
  | chosen target waiting =>
    unfold Player.chosen
    dsimp only
    split
    next => rfl
    next => rfl
  | takeCues => rfl

theorem Moves.coherent (h : Moves p q) (hp : p.story.Coherent) : q.story.Coherent := by
  induction h with
  | refl => exact hp
  | tail _ move ih => exact move.coherent ih

theorem Moves.root (h : Moves p q) : q.root = p.root := by
  induction h with
  | refl => rfl
  | tail _ move ih => exact move.root.trans ih

/-- Every moment of a session has a coherent story of its script. -/
theorem coherent_of_opened {scenes : Block} {index : Nat} (h : Moves (p.opened scenes index) q) :
    q.story.Coherent ∧ q.root = scenes := by
  have opened := p.opened_story scenes index
  refine ⟨h.coherent (opened ▸ .opening scenes index), ?_⟩
  rw [h.root]
  exact congrArg Story.root opened

/-! ## Landing -/

/-- The cursor is at the last label of a name, and there is nothing to return to. -/
def AtLabel (p : Player) (name : String) : Prop :=
  ∃ i, LastLabel p.root name i ∧ p.frame = ⟨p.root, i, []⟩ ∧ p.stack = []

/-- A jump to a label of the root lands there. -/
theorem step_of_goto {n : Node} (here : p.frame.current = some n) (kind : n.kind = .goto)
    (names : Names p.root n.jumpTarget) :
    p.step.2 = true ∧ p.step.1.root = p.root ∧ p.step.1.AtLabel n.jumpTarget := by
  obtain ⟨i, found⟩ := exists_labelIndex names
  have jumps : p.step = (p.jump i, true) := by
    unfold step
    rw [here]
    dsimp only
    rw [kind]
    dsimp only
    rw [found]
  rw [jumps]
  exact ⟨rfl, rfl, i, labelIndex_spec found, rfl, rfl⟩

/-- An option with a star before the name of a label of the root leads there. -/
theorem chosen_of_star {target name : String} (starred : target = "*" ++ name)
    (names : Names p.root name) :
    (p.chosen target).root = p.root ∧ (p.chosen target).AtLabel name := by
  obtain ⟨i, found⟩ := exists_labelIndex names
  have leads : p.targetIndex target = some i := by
    unfold targetIndex
    rw [starred, String.toList_append]
    show labelIndex p.root (String.ofList name.toList) = some i
    rw [String.ofList_toList, found]
  unfold AtLabel chosen
  dsimp only
  rw [withStage_targetIndex, leads]
  exact ⟨rfl, i, labelIndex_spec found, rfl, rfl⟩

/-- No target is reported if and only if every jump and every option with a star, in the
root or in a branch of a conditional at any depth, names a label of the root. Then, at
every moment of every session of the script, a jump about to be played and an option about
to be picked land on the last label of their name, with nothing to return to. -/
theorem checked_jumps_land (scenes : Block) :
    ((check scenes).unresolved = [] ↔ Resolves scenes) ∧
      ((check scenes).unresolved = [] → ∀ (p q : Player) (index : Nat),
        Moves (p.opened scenes index) q →
          (∀ n, q.state = .running → q.frame.current = some n → n.kind = .goto →
            q.step.2 = true ∧ q.step.1.root = scenes ∧ q.step.1.AtLabel n.jumpTarget) ∧
          ∀ n i o name, q.state = .waitingForChoice → q.frame.current = some n →
            n.options[i]? = some o → o.target = "*" ++ name →
              q.chooseOption i = (q.chosen o.target).run ∧
                (q.chosen o.target).root = scenes ∧ (q.chosen o.target).AtLabel name) := by
  refine ⟨unresolved_eq_nil_iff, fun clean p q index moves => ?_⟩
  have resolves := unresolved_eq_nil_iff.mp clean
  obtain ⟨coherent, rfl⟩ := coherent_of_opened moves
  refine ⟨fun n running here kind => ?_, fun n i o name waiting here option starred => ?_⟩
  · exact step_of_goto here kind (resolves.jumps n (coherent.current_within here) kind)
  · have kind : n.kind = .choicePrompt := by
      obtain ⟨m, -, there, waits, -⟩ := coherent.atChoice waiting
      cases Option.some.inj (there.symm.trans here)
      exact kind_of_waitChoice waits
    have names := resolves.options n (coherent.current_within here) kind o
      (List.mem_of_getElem? option) name starred
    refine ⟨?_, chosen_of_star starred names⟩
    unfold chooseOption
    rw [if_pos waiting, here, Option.bind_some, option]
    exact q.choose_eq_chosen o.target waiting

/-- A jump out of a branch over a line to the second of two labels of one name, and a
choice after it that leads back to the label. -/
def loop : Block :=
  [.conditional ["$away", "==", ""] [.jump "home"] [], .ofLabel "home", .dialogue "" "skipped",
    .ofLabel "home", .choice [⟨"again", "*home"⟩]]

/-- The jump is in a branch, the choice in the root; both lead to the second label. -/
theorem checked_jumps_land_loop :
    let p := new ⟨.any, {}, {}⟩ .accepting
    let q := (p.opened loop 0).step.1
    let w := p.start loop 0
    (check loop).unresolved = [] ∧ q.stack.length = 1 ∧ q.step.1.AtLabel "home" ∧
      q.step.1.frame.pc = 3 ∧ w.state = .waitingForChoice ∧
      w.chooseOption 0 = (w.chosen "*home").run ∧ (w.chosen "*home").AtLabel "home" := by
  intro p q w
  have clean : (check loop).unresolved = [] := by decide +kernel
  have moves : Moves (p.opened loop 0) q := .single (.round rfl)
  obtain ⟨n, here, node⟩ := Option.map_eq_some_iff.mp
    (show (q.frame.current.map fun n => (n.kind, n.jumpTarget)) = some (.goto, "home") by
      decide +kernel)
  obtain ⟨kind, target⟩ := Prod.mk.inj node
  obtain ⟨m, there, option⟩ := Option.map_eq_some_iff.mp
    (show (w.frame.current.map fun n => n.options[0]?) = some (some ⟨"again", "*home"⟩) by
      decide +kernel)
  obtain ⟨-, -, lands⟩ :=
    ((checked_jumps_land loop).2 clean p q 0 moves).1 n (by decide +kernel) here kind
  obtain ⟨goesOn, -, back⟩ := ((checked_jumps_land loop).2 clean p w 0 (p.moves_start loop 0)).2
    m 0 _ "home" (by decide +kernel) there option (by decide +kernel)
  rw [target] at lands
  exact ⟨clean, by decide +kernel, lands, by decide +kernel, by decide +kernel, goesOn, back⟩

end Player

end VisualNovel
