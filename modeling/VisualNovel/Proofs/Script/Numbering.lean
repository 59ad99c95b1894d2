import VisualNovel.Proofs.Script.Edits
import VisualNovel.Proofs.Script.SourceOrder

/-!
# Numbers under edits

The number of a node is its place in its block. Taking out and inserting count the block
anew that they change, so that numbers stay places at every depth (`Positioned`); writing
coordinates leaves numbers alone. Replacing puts the other node in as it is, with the number
it brings:

> `positioned_withBlock`: a tree with another block in it is numbered by place exactly if
> that block is.

> `positioned_edits`: so taking out, inserting and moving keep numbers places, and replacing
> does exactly if the other node brings the number of the place.
-/

namespace VisualNovel.Script

open Node

variable {scenes b c t : Block} {path : BlockPath} {i : Nat} {n : Node} {id : NodeId}

/-- Every node, at every depth, has its place in its block for a number. -/
def Positioned (scenes : Block) : Prop :=
  ∀ path i n, nodeAt scenes path i = some n → n.seq = i + 1

/-- The nodes of the block have their places for numbers, and so have those in their branches. -/
theorem positioned_iff : Positioned scenes ↔
    ∀ i n, scenes[i]? = some n → n.seq = i + 1 ∧ ∀ side, Positioned (n.branch side) := by
  constructor
  · intro h i n hn
    refine ⟨h [] i n hn, fun side path j m hm => h (⟨i, side⟩ :: path) j m ?_⟩
    rw [nodeAt_cons, hn]
    exact hm
  · intro h path i n hn
    cases path with
    | nil => exact (h i n hn).1
    | cons step path =>
      rw [nodeAt_cons] at hn
      obtain ⟨m, hm, below⟩ := Option.bind_eq_some_iff.mp hn
      exact (h step.index m hm).2 step.side path i n below

/-! ## The numbers that reading gives -/

theorem renumberNode_eq_self_iff (next : Nat) (n : Node) :
    renumberNode next n = n ↔ n.seq = next ∧ ∀ side, Numbered (n.branch side) := by
  obtain ⟨_, seq, _, _, _, _, _, _, _, t, e⟩ := n
  rw [renumberNode, Bool.forall_bool]
  show _ ↔ seq = next ∧ Numbered e ∧ Numbered t
  simp only [mk.injEq, true_and, eq_comm (a := next)]
  show _ ∧ Numbered t ∧ Numbered e ↔ _
  rw [and_comm (a := Numbered t)]

/-- Renumbering changes nothing exactly if all nodes have their places for numbers. -/
theorem renumberAll_eq_self_iff (next : Nat) (b : Block) :
    renumberAll next b = b ↔
      ∀ i n, b[i]? = some n → n.seq = next + i ∧ ∀ side, Numbered (n.branch side) := by
  induction b generalizing next with
  | nil => simp [renumberAll]
  | cons n ns ih =>
    rw [renumberAll, List.cons.injEq, renumberNode_eq_self_iff, ih]
    constructor
    · rintro ⟨first, others⟩ i m hm
      cases i with
      | zero =>
        obtain rfl := Option.some.inj hm
        exact first
      | succ i =>
        rw [Nat.add_comm i, ← Nat.add_assoc]
        exact others i m hm
    · intro all
      refine ⟨all 0 n rfl, fun i m hm => ?_⟩
      rw [Nat.add_assoc, Nat.add_comm 1]
      exact all (i + 1) m hm

/-- Numbering a tree by place leaves it as it is exactly if its numbers are places. -/
theorem positioned_iff_numbered (scenes : Block) : Positioned scenes ↔ Numbered scenes := by
  induction scenes using branches_induction with
  | step scenes ih =>
    rw [positioned_iff]
    show _ ↔ renumberAll 1 scenes = scenes
    rw [renumberAll_eq_self_iff]
    refine forall₃_congr fun i n hn => ?_
    rw [Nat.add_comm i, forall_congr' (ih n (List.mem_of_getElem? hn))]

/-! ## Another block in a tree -/

theorem Positioned.branch (h : Positioned scenes) (hn : n ∈ scenes) (side : Bool) :
    Positioned (n.branch side) := by
  obtain ⟨i, hi⟩ := List.mem_iff_getElem?.mp hn
  exact (positioned_iff.mp h i n hi).2 side

/-- The blocks of a positioned tree are positioned. -/
theorem Positioned.block (h : Positioned scenes) (hb : resolve scenes path = some b) :
    Positioned b := by
  induction path generalizing scenes with
  | nil =>
    obtain rfl : scenes = b := Option.some.inj hb
    exact h
  | cons step path ih =>
    rw [resolve_cons] at hb
    obtain ⟨n, hn, below⟩ := Option.bind_eq_some_iff.mp hb
    exact ih (h.branch (List.mem_of_getElem? hn) step.side) below

theorem seq_withBranch (n : Node) (side : Bool) (b : Block) :
    (n.withBranch side b).seq = n.seq := by
  cases side <;> rfl

/-- A node whose branches are numbered by place keeps them so with another such branch. -/
theorem positioned_withBranch (h : ∀ side, Positioned (n.branch side)) (hb : Positioned b)
    (side : Bool) : ∀ s, Positioned ((n.withBranch side b).branch s) := by
  intro s
  by_cases same : s = side
  · rw [same, branch_withBranch]
    exact hb
  · rw [Bool.eq_not.mpr same, branch_withBranch_other]
    exact h _

/-- A tree with another block in it is numbered by place exactly if that block is. -/
theorem positioned_withBlock (h : Positioned scenes) (hb : resolve scenes path = some b)
    (c : Block) : Positioned (withBlock scenes path c) ↔ Positioned c := by
  induction path generalizing scenes with
  | nil => exact Iff.rfl
  | cons step path ih =>
    rw [resolve_cons] at hb
    obtain ⟨n, hn, below⟩ := Option.bind_eq_some_iff.mp hb
    obtain ⟨number, branches⟩ := positioned_iff.mp h step.index n hn
    rw [← ih (branches step.side) below]
    have new := getElem?_withBlock_self hn path c
    constructor
    · intro all
      have inBranch := (positioned_iff.mp all step.index _ new).2 step.side
      rwa [branch_withBranch] at inBranch
    · intro inBranch
      refine positioned_iff.mpr fun i m hm => ?_
      by_cases here : i = step.index
      · rw [here, new] at hm
        obtain rfl := Option.some.inj hm
        rw [seq_withBranch, here]
        exact ⟨number, positioned_withBranch branches inBranch step.side⟩
      · rw [getElem?_withBlock_of_ne here] at hm
        exact positioned_iff.mp h i m hm

/-! ## The blocks that edits make -/

/-- Counting a block anew is enough if the branches in it are positioned. -/
theorem positioned_counted (h : ∀ m ∈ b, ∀ side, Positioned (m.branch side)) :
    Positioned (counted b) := by
  refine positioned_iff.mpr fun i m hm => ?_
  rw [counted, List.getElem?_mapIdx] at hm
  obtain ⟨old, hold, rfl⟩ := Option.map_eq_some_iff.mp hm
  exact ⟨rfl, h old (List.mem_of_getElem? hold)⟩

theorem positioned_insertInto (h : Positioned b) (hn : ∀ side, Positioned (n.branch side))
    (index : Nat) : Positioned (insertInto b index n) := by
  rw [insertInto_eq]
  refine positioned_counted fun m hm => ?_
  rcases (List.mem_insertIdx (Nat.min_le_right _ _)).mp hm with rfl | hm
  · exact hn
  · exact h.branch hm

/-- A block with one node edited is numbered by place exactly if that node is. -/
theorem positioned_modify (h : Positioned b) (hn : b[i]? = some n) {f : Node → Node}
    (hf : ∀ side, Positioned ((f n).branch side)) :
    Positioned (b.modify i f) ↔ (f n).seq = i + 1 := by
  constructor
  · intro all
    refine (positioned_iff.mp all i (f n) ?_).1
    rw [List.getElem?_modify, hn]
    simp
  · intro number
    refine positioned_iff.mpr fun j m hm => ?_
    rw [List.getElem?_modify] at hm
    obtain ⟨old, hold, rfl⟩ := Option.map_eq_some_iff.mp hm
    by_cases here : i = j
    · subst here
      obtain rfl : n = old := Option.some.inj (hn.symm.trans hold)
      rw [if_pos rfl]
      exact ⟨number, hf⟩
    · rw [if_neg here]
      exact positioned_iff.mp h j old hold

/-! ## The edits -/

/-- An edit of one node keeps numbers places exactly if it leaves that node its place for a
number. -/
theorem positioned_update (h : Positioned scenes) {f : Node → Node}
    (updated : update scenes id f = some t) :
    ∃ path i n, nodeAt scenes path i = some n ∧ n.id = id ∧
      ((∀ side, Positioned ((f n).branch side)) → (Positioned t ↔ (f n).seq = i + 1)) := by
  obtain ⟨path, b, i, n, hb, hn, hid, rfl⟩ := (editBlock_cases id _ scenes).2 t updated
  refine ⟨path, i, n, nodeAt_eq_some_iff.mpr ⟨b, hb, hn⟩, hid, fun hf => ?_⟩
  rw [positioned_withBlock h hb]
  exact positioned_modify (h.block hb) hn hf

/-- Taking a node out keeps numbers places. -/
theorem positioned_remove (h : Positioned scenes) (removed : remove scenes id = some t) :
    Positioned t := by
  obtain ⟨path, b, i, n, hb, -, -, rfl⟩ := (editBlock_cases id _ scenes).2 t removed
  rw [positioned_withBlock h hb]
  show Positioned (renumberBlock (b.eraseIdx i))
  rw [renumberBlock_eq]
  exact positioned_counted fun m hm => (h.block hb).branch (List.mem_of_mem_eraseIdx hm)

/-- An edit that leaves the number and the branches of a node numbered keeps numbers places. -/
theorem positioned_of_update (h : Positioned scenes) {f : Node → Node}
    (updated : update scenes id f = some t) (seq : ∀ n, (f n).seq = n.seq)
    (branches : ∀ n, (∀ side, Positioned (n.branch side)) →
      ∀ side, Positioned ((f n).branch side)) :
    Positioned t := by
  obtain ⟨path, i, n, place, -, exactly⟩ := positioned_update h updated
  obtain ⟨b, hb, hn⟩ := nodeAt_eq_some_iff.mp place
  have old := positioned_iff.mp (h.block hb) i n hn
  exact (exactly (branches n old.2)).mpr ((seq n).trans old.1)

/-- Inserting a node keeps them, whatever number it brings. -/
theorem positioned_insert (h : Positioned scenes) (hn : ∀ side, Positioned (n.branch side))
    {position : InsertPosition} (inserted : insert scenes position n = some t) : Positioned t := by
  cases position with
  | root index =>
    obtain rfl := Option.some.inj inserted
    exact positioned_insertInto h hn index
  | branch parent side index =>
    refine positioned_of_update h inserted (fun p => seq_withBranch p side _) fun p hp => ?_
    exact positioned_withBranch hp (positioned_insertInto (hp side) hn index) side

theorem positioned_setCoordinates (h : Positioned scenes) {x y : Int32}
    (written : setCoordinates scenes id x y = some t) : Positioned t := by
  obtain ⟨_, -, written⟩ := Option.bind_eq_some_iff.mp written
  obtain ⟨places, -, written⟩ := Option.bind_eq_some_iff.mp written
  exact positioned_of_update h written (fun _ => rfl) fun _ hn => hn

/-- Where identities are distinct and numbers are places, they are places still when a node is
taken out, put in or given coordinates, and when a node is replaced by one with the number of
its place. They are not when the other node has another number. -/
theorem positioned_edits (scenes : Block) (distinct : (ids scenes).Nodup)
    (positioned : Positioned scenes) :
    (∀ id t, remove scenes id = some t → Positioned t) ∧
      (∀ position n t, (∀ side, Positioned (n.branch side)) →
        insert scenes position n = some t → Positioned t) ∧
      (∀ id x y t, setCoordinates scenes id x y = some t → Positioned t) ∧
      ∀ id n t, (∀ side, Positioned (n.branch side)) → replace scenes id n = some t →
        (Positioned t ↔ ∃ path i, findPath id scenes = some (path, i) ∧ n.seq = i + 1) := by
  refine ⟨fun id t => positioned_remove positioned,
    fun position n t hn => positioned_insert positioned hn,
    fun id x y t => positioned_setCoordinates positioned, ?_⟩
  intro id n t hn replaced
  obtain ⟨path, i, old, place, hid, exactly⟩ := positioned_update positioned replaced
  rw [exactly hn]
  -- The place the node is replaced at is the one it is found at.
  have found : findPath id scenes = some (path, i) := by
    rcases find_cases id scenes with ⟨notFound, -⟩ | ⟨n', path', i', -, foundPath, hid', place'⟩
    · rw [replace, update, editBlock_eq_none notFound] at replaced
      cases replaced
    · obtain ⟨rfl, rfl⟩ := nodeAt_unique distinct place place' (hid.trans hid'.symm)
      exact foundPath
  constructor
  · intro number
    exact ⟨path, i, found, number⟩
  · rintro ⟨path', i', found', number⟩
    obtain ⟨rfl, rfl⟩ := Prod.mk.inj (Option.some.inj (found.symm.trans found'))
    exact number

/-- A line, an object that is moved where a condition holds, and another line. -/
def moving : Block :=
  (numberBlock 0 (renumber [.dialogue "" "one",
    .conditional ["$a", "==", "1"] [(Node.ofKind .move).withParams ["logo"]] [],
    .dialogue "" "two"])).1

/-- Each of the four edits keeps its numbers places; the other line brings its own. -/
theorem positioned_edits_moving :
    (ids moving).Nodup ∧ Positioned moving ∧
      (∃ t, remove moving 0 = some t ∧ Positioned t) ∧
      (∃ t, insert moving (.branch 1 true 0) (.dialogue "" "new") = some t ∧ Positioned t) ∧
      (∃ t, setCoordinates moving 2 30 40 = some t ∧ Positioned t) ∧
      ∃ t, replace moving 3 ((Node.dialogue "" "new").withSeq 3) = some t ∧ Positioned t := by
  have distinct : (ids moving).Nodup := by decide
  have positioned : Positioned moving := (positioned_iff_numbered _).mpr rfl
  have noBranches (side : Bool) (seq : Nat) :
      Positioned (((Node.dialogue "" "new").withSeq seq).branch side) := by
    cases side <;> exact (positioned_iff_numbered _).mpr rfl
  obtain ⟨removed, inserted, moved, replaced⟩ := positioned_edits moving distinct positioned
  refine ⟨distinct, positioned, ⟨_, rfl, removed 0 _ rfl⟩, ⟨_, rfl, ?_⟩,
    ⟨_, rfl, moved 2 30 40 _ rfl⟩, ⟨_, rfl, ?_⟩⟩
  · exact inserted (.branch 1 true 0) _ _ (fun side => noBranches side 0) rfl
  · exact (replaced 3 _ _ (fun side => noBranches side 3) rfl).mpr ⟨[], 2, rfl, rfl⟩

/-- A node that was in no tree has no number, and is put in the place of another as it is. -/
theorem replaced_unpositioned :
    (ids [(Node.dialogue "" "one").withSeq 1]).Nodup ∧
      Positioned [(Node.dialogue "" "one").withSeq 1] ∧
      (∀ side, Positioned ((Node.dialogue "" "new").branch side)) ∧
      replace [(Node.dialogue "" "one").withSeq 1] 0 (.dialogue "" "new") =
        some [.dialogue "" "new"] ∧
      ¬Positioned [.dialogue "" "new"] := by
  refine ⟨by decide, (positioned_iff_numbered _).mpr rfl, fun side => ?_, rfl, fun positioned => ?_⟩
  · cases side <;> exact (positioned_iff_numbered _).mpr rfl
  · exact absurd (positioned [] 0 _ rfl) (by decide)

end VisualNovel.Script
