import Mathlib.Data.List.Perm.Basic
import VisualNovel.Proofs.Script.Numbering

/-!
# Taking out what was put in

Inserting puts a longer block in the place of one, and taking out finds the new node by its
identity and puts a shorter one there. Two things could keep the old tree from coming back. The
new node could be found elsewhere: it is not, since the identities of a tree with another block
in it are those outside of that block and those of the new one (`exists_ids_withBlock`). And the
block is counted twice over, which leaves it with the numbers of its places:

> `counted_eraseIdx_insertIdx`: counting, taking out and counting again counts the old block.

> `remove_insert`: so taking out a node just inserted gives the old tree back exactly if the
> block it went into was numbered by place.
-/

namespace VisualNovel.Script

open Node
open scoped List

variable {scenes b c : Block} {path : BlockPath} {n : Node} {k : Nat}

/-! ## The same place twice -/

/-- Of two blocks put in one place the second stays. -/
theorem withBlock_withBlock (scenes : Block) (path : BlockPath) (b c : Block) :
    withBlock (withBlock scenes path b) path c = withBlock scenes path c := by
  induction path generalizing scenes with
  | nil => rfl
  | cons step path ih =>
    simp only [withBlock, List.modify_modify_eq]
    congr 1
    funext n
    rw [Function.comp_apply, branch_withBranch, withBranch_withBranch, ih]

/-- Putting a block where it is changes nothing. -/
theorem withBlock_self (h : resolve scenes path = some b) : withBlock scenes path b = scenes := by
  induction path generalizing scenes with
  | nil => exact (Option.some.inj h).symm
  | cons step path ih =>
    rw [resolve_cons] at h
    obtain ⟨n, hn, below⟩ := Option.bind_eq_some_iff.mp h
    obtain ⟨hi, rfl⟩ := List.getElem?_eq_some_iff.mp hn
    rw [withBlock_cons hn, ih below, withBranch_branch, List.set_getElem_self]

/-! ## Identities -/

theorem ids_append (b c : Block) : ids (b ++ c) = ids b ++ ids c := by
  unfold ids
  rw [blockNodes_append, List.map_append]

theorem ids_perm (h : b.Perm c) : (ids b).Perm (ids c) := by
  unfold ids
  rw [blockNodes_eq_flatMap, blockNodes_eq_flatMap]
  exact (h.flatMap_right nodes).map _

theorem ids_renumberFrom (next : Nat) (b : Block) : ids (renumberFrom next b) = ids b := by
  induction b generalizing next with
  | nil => rfl
  | cons n ns ih =>
    rw [renumberFrom, ids_cons, ids_cons, ih]
    rfl

theorem ids_counted (b : Block) : ids (counted b) = ids b := by
  rw [← renumberBlock_eq, renumberBlock, ids_renumberFrom]

/-- The identities in a node with another branch are those of the branch and others. -/
theorem ids_withBranch (n : Node) (side : Bool) (b : Block) :
    (ids [n.withBranch side b]).Perm (ids b ++ n.id :: ids (n.branch !side)) := by
  rw [ids_cons]
  cases side with
  | true =>
    show (n.id :: (ids b ++ ids n.elseBranch) ++ []).Perm (ids b ++ n.id :: ids n.elseBranch)
    rw [List.append_nil]
    exact List.perm_middle.symm
  | false =>
    show (n.id :: (ids n.thenBranch ++ ids b) ++ []).Perm (ids b ++ n.id :: ids n.thenBranch)
    rw [List.append_nil]
    exact (List.perm_append_comm.cons n.id).trans List.perm_middle.symm

/-- The identities of a tree with another block in it are those of the block, and others that
do not depend on it. -/
theorem exists_ids_withBlock (h : resolve scenes path = some b) :
    ∃ others, ∀ c, (ids (withBlock scenes path c)).Perm (ids c ++ others) := by
  induction path generalizing scenes with
  | nil => exact ⟨[], fun c => by rw [withBlock_nil, List.append_nil]⟩
  | cons step path ih =>
    rw [resolve_cons] at h
    obtain ⟨n, hn, below⟩ := Option.bind_eq_some_iff.mp h
    obtain ⟨inBranch, rebuilt⟩ := ih below
    obtain ⟨hi, -⟩ := List.getElem?_eq_some_iff.mp hn
    let beside := n.id :: ids (n.branch !step.side)
    let behind := ids (scenes.eraseIdx step.index)
    -- None of these three depends on the new block.
    refine ⟨inBranch ++ beside ++ behind, fun c => ?_⟩
    let new := n.withBranch step.side (withBlock (n.branch step.side) path c)
    calc ids (withBlock scenes (step :: path) c)
      _ = ids (scenes.set step.index new) := by rw [withBlock_cons hn]
      _ ~ ids ([new] ++ scenes.eraseIdx step.index) :=
        ids_perm (List.set_perm_cons_eraseIdx hi new)
      _ = ids [new] ++ behind := ids_append _ _
      _ ~ ids (withBlock (n.branch step.side) path c) ++ beside ++ behind :=
        (ids_withBranch n step.side _).append_right behind
      _ ~ ids c ++ inBranch ++ beside ++ behind :=
        ((rebuilt c).append_right beside).append_right behind
      _ = ids c ++ (inBranch ++ beside ++ behind) := by simp only [List.append_assoc]

/-! ## Inserting -/

/-- The block that a node is inserted into. -/
def target (scenes : Block) : InsertPosition → Option Block
  | .root _ => some scenes
  | .branch parent side _ => (find parent scenes).map (·.branch side)

/-- Inserting puts the block it goes into in its place again, with the node in it and counted. -/
theorem insert_eq_some (distinct : (ids scenes).Nodup) {position : InsertPosition}
    (h : target scenes position = some b) :
    ∃ path k, resolve scenes path = some b ∧ k ≤ b.length ∧
      ∀ n, insert scenes position n = some (withBlock scenes path (counted (b.insertIdx k n))) := by
  cases position with
  | root index =>
    obtain rfl := Option.some.inj h
    exact ⟨[], min index scenes.length, rfl, Nat.min_le_right _ _,
      fun n => congrArg some (insertInto_eq scenes index n)⟩
  | branch parent side index =>
    obtain ⟨p, found, rfl⟩ := Option.map_eq_some_iff.mp h
    obtain ⟨rfl, path, b, i, hb, hp⟩ := place_of_find found
    exact ⟨path ++ [⟨i, side⟩], min index (p.branch side).length, resolve_branch hb hp side,
      Nat.min_le_right _ _, insert_branch_eq distinct hb hp side index⟩

/-- No identity is there twice when a node with others is put into a block. -/
theorem nodup_ids_inserted (distinct : (ids (n :: scenes)).Nodup)
    (hb : resolve scenes path = some b) (hk : k ≤ b.length) :
    (ids (withBlock scenes path (counted (b.insertIdx k n)))).Nodup := by
  obtain ⟨others, rebuilt⟩ := exists_ids_withBlock hb
  have old : (ids scenes).Perm (ids b ++ others) := by
    have same := rebuilt b
    rwa [withBlock_self hb] at same
  have all : (ids (withBlock scenes path (counted (b.insertIdx k n)))).Perm (ids (n :: scenes)) :=
    calc ids (withBlock scenes path (counted (b.insertIdx k n)))
      _ ~ ids (counted (b.insertIdx k n)) ++ others := rebuilt _
      _ = ids (b.insertIdx k n) ++ others := by rw [ids_counted]
      _ ~ ids ([n] ++ b) ++ others := (ids_perm (List.perm_insertIdx n b hk)).append_right others
      _ = ids [n] ++ (ids b ++ others) := by rw [ids_append, List.append_assoc]
      _ ~ ids [n] ++ ids scenes := old.symm.append_left (ids [n])
      _ = ids (n :: scenes) := (ids_append [n] scenes).symm
  exact all.nodup_iff.mpr distinct

/-! ## Counting -/

/-- A block that is counted anew has the numbers of the last count. -/
theorem counted_eraseIdx_counted (b : Block) (k : Nat) :
    counted ((counted b).eraseIdx k) = counted (b.eraseIdx k) := by
  refine List.ext_getElem? fun i => ?_
  simp only [counted, List.getElem?_mapIdx, List.getElem?_eraseIdx]
  split
  · rw [Option.map_map]
    rfl
  · rw [Option.map_map]
    rfl

/-- Counting a block, with a node that is taken out again, counts the block. -/
theorem counted_eraseIdx_insertIdx (b : Block) (k : Nat) (n : Node) :
    counted ((counted (b.insertIdx k n)).eraseIdx k) = counted b := by
  rw [counted_eraseIdx_counted, List.eraseIdx_insertIdx_self]

theorem counted_eq_self_iff :
    counted b = b ↔ ∀ i m, b[i]? = some m → m.seq = i + 1 := by
  constructor
  · intro same i m hm
    rw [← same, counted, List.getElem?_mapIdx] at hm
    obtain ⟨old, -, rfl⟩ := Option.map_eq_some_iff.mp hm
    rfl
  · intro numbered
    refine List.ext_getElem? fun i => ?_
    rw [counted, List.getElem?_mapIdx]
    cases hm : b[i]? with
    | none => rfl
    | some m => rw [Option.map_some, ← numbered i m hm, withSeq_seq]

/-! ## Taking out -/

/-- Taking out a node that was put into a block leaves that block, counted. -/
theorem remove_inserted (distinct : (ids (n :: scenes)).Nodup)
    (hb : resolve scenes path = some b) (hk : k ≤ b.length) :
    remove (withBlock scenes path (counted (b.insertIdx k n))) n.id =
      some (withBlock scenes path (counted b)) := by
  have here : (counted (b.insertIdx k n))[k]? = some (n.withSeq (k + 1)) := by
    rw [counted, List.getElem?_mapIdx, List.getElem?_insertIdx_self, if_pos hk]
    rfl
  have removed := editBlock_eq_some (nodup_ids_inserted distinct hb hk) (resolve_withBlock hb _)
    here fun b i => renumberBlock (b.eraseIdx i)
  rwa [withBlock_withBlock, renumberBlock_eq, counted_eraseIdx_insertIdx] at removed

/-- Where the identities of a tree and of a node are distinct, all together, inserting the node
into a block of the tree succeeds. Taking it out again gives the tree back, identities and
numbers included, exactly if the nodes of that block had their places for numbers. -/
theorem remove_insert (scenes : Block) (n : Node) (distinct : (ids (n :: scenes)).Nodup)
    (position : InsertPosition) (b : Block) (into : target scenes position = some b) :
    ∃ t, insert scenes position n = some t ∧
      (remove t n.id = some scenes ↔ ∀ i m, b[i]? = some m → m.seq = i + 1) := by
  have distinctOld : (ids scenes).Nodup := by
    have all := distinct
    rw [ids_cons] at all
    exact all.of_append_right
  obtain ⟨path, k, hb, hk, inserted⟩ := insert_eq_some distinctOld into
  refine ⟨_, inserted n, ?_⟩
  rw [remove_inserted distinct hb hk, ← counted_eq_self_iff, Option.some.injEq]
  constructor
  · intro same
    have there := resolve_withBlock hb (counted b)
    rw [same, hb] at there
    exact (Option.some.inj there).symm
  · intro same
    rw [same, withBlock_self hb]

/-- A conditional with a line in it. -/
def graft : Node := (number 7 (.conditional ["$b", "==", "1"] [.dialogue "" "new"] [])).1

/-- It is put behind the only node of a branch, at an index beyond the end, and taken out. -/
theorem remove_insert_graft :
    (ids (graft :: moving)).Nodup ∧
      ∃ b t, target moving (.branch 1 true 9) = some b ∧ b.length = 1 ∧
        insert moving (.branch 1 true 9) graft = some t ∧ remove t 7 = some moving := by
  have distinct : (ids (graft :: moving)).Nodup := by decide
  obtain ⟨t, inserted, undone⟩ := remove_insert moving graft distinct (.branch 1 true 9) _ rfl
  refine ⟨distinct, _, t, rfl, rfl, inserted, undone.mpr fun i m hm => ?_⟩
  cases i with
  | zero =>
    cases hm
    rfl
  | succ i => cases hm

end VisualNovel.Script
