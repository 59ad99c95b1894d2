import VisualNovel.Proofs.Script.Places

/-!
# What an edit changes

An edit names a node. The block that holds it becomes another, and so do the nodes on the
way there, each in the one branch the way goes through (`withBlock`). `Rebuilt` says what
that leaves alone: every other node is at its place as it was.

> `rebuilt_withBlock`: putting a block in the place of another changes nothing else.

> `editBlock_cases`: an edit puts a block in the place of one that has a node with the
> identity, or there is no such node.

The edits search a block before any branch in it, and `find` goes into the branches of a
node before it goes on. Where identities are distinct both come to the same node:

> `edits_at_place`: edits answer nothing if `find` does, and else the tree with only the
> block changed that `findPath` names.
-/

namespace VisualNovel.Script

open Node

variable {scenes b c : Block} {path : BlockPath} {step : BranchStep} {i : Nat} {n : Node}
  {id : NodeId} {edit : Block → Nat → Block}

/-- The tree with another block at a path. A tree without the path stays as it is. -/
def withBlock (scenes : Block) (path : BlockPath) (b : Block) : Block :=
  match path with
  | [] => b
  | step :: path =>
    scenes.modify step.index fun n =>
      n.withBranch step.side (withBlock (n.branch step.side) path b)

@[simp] theorem withBlock_nil (scenes b : Block) : withBlock scenes [] b = b := rfl

/-- A block that is put further inside changes one branch of one node. -/
theorem withBlock_cons (h : scenes[step.index]? = some n) (path : BlockPath) (b : Block) :
    withBlock scenes (step :: path) b =
      scenes.set step.index (n.withBranch step.side (withBlock (n.branch step.side) path b)) := by
  rw [withBlock, List.modify_eq_set_getElem?, h]
  rfl

/-- The node that the path goes through has the new branch. -/
theorem getElem?_withBlock_self (h : scenes[step.index]? = some n) (path : BlockPath) (b : Block) :
    (withBlock scenes (step :: path) b)[step.index]? =
      some (n.withBranch step.side (withBlock (n.branch step.side) path b)) := by
  rw [withBlock, List.getElem?_modify, h]
  simp

/-- The other nodes of its block are as they were. -/
theorem getElem?_withBlock_of_ne (h : i ≠ step.index) (path : BlockPath) (b : Block) :
    (withBlock scenes (step :: path) b)[i]? = scenes[i]? := by
  rw [withBlock, List.getElem?_modify]
  simp [Ne.symm h]

/-- A block in a branch of a node is one block further. -/
theorem withBlock_concat (hb : resolve scenes path = some b) (hn : b[i]? = some n) (side : Bool)
    (c : Block) :
    withBlock scenes (path ++ [⟨i, side⟩]) c =
      withBlock scenes path (b.set i (n.withBranch side c)) := by
  induction path generalizing scenes with
  | nil =>
    obtain rfl : scenes = b := Option.some.inj hb
    rw [List.nil_append, withBlock_nil, withBlock_cons hn]
    rfl
  | cons first path ih =>
    rw [resolve_cons] at hb
    obtain ⟨m, hm, below⟩ := Option.bind_eq_some_iff.mp hb
    rw [List.cons_append, withBlock_cons hm, withBlock_cons hm, ih below]

/-! ## What is left alone -/

/-- A tree is another one but for the block at a path. -/
structure Rebuilt (old : Block) (path : BlockPath) (b : Block) (new : Block) : Prop where
  /-- The block is at the path. -/
  block : resolve new path = some b
  /-- A node the path goes through has what comes of the branch it enters, and is as it was
  in all else. -/
  ancestor : ∀ before step after, path = before ++ step :: after →
    ∃ n c, nodeAt old before step.index = some n ∧ resolve new (before ++ [step]) = some c ∧
      nodeAt new before step.index = some (n.withBranch step.side c)
  /-- At every place outside of the block that the path does not go through, there is the
  node that was there, or none as before. -/
  other : ∀ q j, ¬path <+: q → (∀ side, ¬q ++ [⟨j, side⟩] <+: path) →
    nodeAt new q j = nodeAt old q j

/-- The block is at the path where it was put. -/
theorem resolve_withBlock (h : resolve scenes path = some c) (b : Block) :
    resolve (withBlock scenes path b) path = some b := by
  induction path generalizing scenes with
  | nil => rfl
  | cons step path ih =>
    rw [resolve_cons] at h ⊢
    obtain ⟨n, hn, below⟩ := Option.bind_eq_some_iff.mp h
    rw [getElem?_withBlock_self hn, Option.bind_some, branch_withBranch]
    exact ih below

/-- What is seen on entering the branch that holds the block, and the other one. -/
theorem resolve_withBlock_cons (h : scenes[step.index]? = some n) (path q : BlockPath)
    (b : Block) :
    resolve (withBlock scenes (step :: path) b) (step :: q) =
      resolve (withBlock (n.branch step.side) path b) q := by
  rw [resolve_cons, getElem?_withBlock_self h, Option.bind_some, branch_withBranch]

/-- The nodes that the path goes through keep all but the branch it enters. -/
theorem ancestor_withBlock (h : resolve scenes path = some c) (b : Block)
    {before after : BlockPath} (split : path = before ++ step :: after) :
    ∃ n d, nodeAt scenes before step.index = some n ∧
      resolve (withBlock scenes path b) (before ++ [step]) = some d ∧
      nodeAt (withBlock scenes path b) before step.index = some (n.withBranch step.side d) := by
  induction before generalizing scenes path with
  | nil =>
    rw [List.nil_append] at split
    subst split
    rw [resolve_cons] at h
    obtain ⟨n, hn, -⟩ := Option.bind_eq_some_iff.mp h
    refine ⟨n, withBlock (n.branch step.side) after b, hn, ?_, getElem?_withBlock_self hn _ _⟩
    rw [List.nil_append, resolve_withBlock_cons hn]
    rfl
  | cons first before ih =>
    rw [List.cons_append] at split
    subst split
    rw [resolve_cons] at h
    obtain ⟨m, hm, below⟩ := Option.bind_eq_some_iff.mp h
    obtain ⟨n, d, hn, hd, hnew⟩ := ih below rfl
    refine ⟨n, d, ?_, ?_, ?_⟩
    · rw [nodeAt_cons, hm]
      exact hn
    · rw [List.cons_append, resolve_withBlock_cons hm]
      exact hd
    · rw [nodeAt_cons, getElem?_withBlock_self hm, Option.bind_some, branch_withBranch]
      exact hnew

/-- Nodes that the path does not go through are as they were, at every depth. -/
theorem other_withBlock (path : BlockPath) (scenes b : Block) : ∀ (q : BlockPath) (j : Nat),
    ¬path <+: q → (∀ side, ¬q ++ [⟨j, side⟩] <+: path) →
      nodeAt (withBlock scenes path b) q j = nodeAt scenes q j := by
  induction path generalizing scenes with
  | nil =>
    intro q j outside
    exact absurd List.nil_prefix outside
  | cons step path ih =>
    intro q j outside aside
    cases q with
    | nil =>
      refine getElem?_withBlock_of_ne (fun same => aside step.side ?_) path b
      rw [List.nil_append, same]
      exact List.cons_prefix_cons.mpr ⟨rfl, List.nil_prefix⟩
    | cons first q =>
      rw [nodeAt_cons, nodeAt_cons]
      by_cases hindex : first.index = step.index
      · rw [hindex]
        cases hn : scenes[step.index]? with
        | none => rw [withBlock, List.getElem?_modify, hn]; rfl
        | some n =>
          rw [getElem?_withBlock_self hn, Option.bind_some, Option.bind_some]
          by_cases hside : first.side = step.side
          · -- The place is further down the way to the block.
            obtain rfl : first = step := by
              cases first
              cases step
              exact congrArg₂ BranchStep.mk hindex hside
            rw [branch_withBranch]
            refine ih _ q j (fun further => outside ?_) fun side further => aside side ?_
            · exact List.cons_prefix_cons.mpr ⟨rfl, further⟩
            · exact List.cons_prefix_cons.mpr ⟨rfl, further⟩
          · have opposite : first.side = !step.side := Bool.eq_not.mpr hside
            rw [opposite, branch_withBranch_other]
      · rw [getElem?_withBlock_of_ne hindex]

/-- Putting a block in the place of another changes nothing else. -/
theorem rebuilt_withBlock (h : resolve scenes path = some c) (b : Block) :
    Rebuilt scenes path b (withBlock scenes path b) :=
  ⟨resolve_withBlock h b, fun _ _ _ split => ancestor_withBlock h b split,
    other_withBlock path scenes b⟩

/-! ## Where an edit is made -/

/-- An edit of a node goes into its first branch, and only then into the second one. -/
theorem editNode_eq (id : NodeId) (edit : Block → Nat → Block) (n : Node) :
    editNode id edit n =
      ((editBlock id edit n.thenBranch).map (n.withBranch true)).or
        ((editBlock id edit n.elseBranch).map (n.withBranch false)) := by
  obtain ⟨_, _, _, _, _, _, _, _, _, _, _⟩ := n
  rw [editNode]
  rfl

/-- A tree comes of a block by an edit of a block in it that holds a node with the identity. -/
def EditOf (id : NodeId) (edit : Block → Nat → Block) (scenes new : Block) : Prop :=
  ∃ path b i n, resolve scenes path = some b ∧ b[i]? = some n ∧ n.id = id ∧
    new = withBlock scenes path (edit b i)

/-- An edit answers nothing if no node has the identity, and else what comes of an edit. -/
def EditsOf (id : NodeId) (edit : Block → Nat → Block) (scenes : Block) (answer : Option Block) :
    Prop :=
  (answer = none → id ∉ ids scenes) ∧ ∀ new, answer = some new → EditOf id edit scenes new

/-- An edit in a branch is one of the block that holds the node. -/
theorem EditOf.inside {side : Bool} {new : Block} (here : scenes[i]? = some n)
    (h : EditOf id edit (n.branch side) new) :
    EditOf id edit scenes (scenes.set i (n.withBranch side new)) := by
  obtain ⟨path, b, j, m, hb, hm, hid, rfl⟩ := h
  refine ⟨⟨i, side⟩ :: path, b, j, m, ?_, hm, hid, ?_⟩
  · rw [resolve_cons, here]
    exact hb
  · rw [withBlock_cons here]

/-- The branches of the nodes behind others are edited in their order. -/
theorem editBranches_cases (id : NodeId) (edit : Block → Nat → Block) (ns before : Block)
    (inBranches : ∀ m ∈ ns, ∀ side,
      EditsOf id edit (m.branch side) (editBlock id edit (m.branch side))) :
    (editBranches id edit ns = none → ∀ m ∈ ns, ∀ side, id ∉ ids (m.branch side)) ∧
      ∀ new, editBranches id edit ns = some new →
        EditOf id edit (before ++ ns) (before ++ new) := by
  induction ns generalizing before with
  | nil =>
    rw [editBranches]
    exact ⟨fun _ m hm => absurd hm List.not_mem_nil, nofun⟩
  | cons n ns ih =>
    obtain ⟨first, others⟩ := List.forall_mem_cons.mp inBranches
    have here : (before ++ n :: ns)[before.length]? = some n := by simp
    have set (m : Node) : (before ++ n :: ns).set before.length m = before ++ m :: ns := by simp
    -- The node in front of the others is put behind those before, which makes the places right.
    obtain ⟨noneBehind, behind⟩ := ih (before ++ [n]) others
    simp only [List.append_assoc, List.singleton_append] at behind
    rw [editBranches, editNode_eq]
    constructor
    · intro nothing
      simp only [Option.or_eq_none_iff, Option.map_eq_none_iff] at nothing
      obtain ⟨⟨noThen, noElse⟩, noOther⟩ := nothing
      refine List.forall_mem_cons.mpr ⟨fun side => ?_, noneBehind noOther⟩
      cases side with
      | true => exact (first true).1 noThen
      | false => exact (first false).1 noElse
    · intro new edited
      simp only [Option.or_eq_some_iff, Option.map_eq_some_iff] at edited
      -- The edit is in the first branch, else in the second, else behind the node.
      rcases edited with ⟨m, ⟨t, inThen, rfl⟩ | ⟨-, e, inElse, rfl⟩, rfl⟩ | ⟨-, new, later, rfl⟩
      · have inside := ((first true).2 t inThen).inside here
        rwa [set] at inside
      · have inside := ((first false).2 e inElse).inside here
        rwa [set] at inside
      · exact behind new later

/-- A node with the identity is in the block or in a branch of one that is. -/
theorem mem_ids_iff :
    id ∈ ids scenes ↔ ∃ m ∈ scenes, m.id = id ∨ ∃ side, id ∈ ids (m.branch side) := by
  induction scenes with
  | nil => simp [ids, blockNodes]
  | cons n ns ih =>
    rw [ids_cons, List.mem_append, ih]
    simp only [List.mem_cons, List.mem_append, exists_eq_or_imp, Bool.exists_bool]
    show ((id = n.id ∨ id ∈ ids n.thenBranch ∨ id ∈ ids n.elseBranch) ∨ _) ↔
      ((n.id = id ∨ id ∈ ids n.elseBranch ∨ id ∈ ids n.thenBranch) ∨ _)
    rw [eq_comm, or_comm (a := id ∈ ids n.thenBranch)]

/-- A block is edited itself if it holds the node, and else in its branches. -/
theorem editBlock_of_branches
    (inBranches : ∀ m ∈ scenes, ∀ side,
      EditsOf id edit (m.branch side) (editBlock id edit (m.branch side))) :
    EditsOf id edit scenes (editBlock id edit scenes) := by
  obtain ⟨noBranch, inBranch⟩ := editBranches_cases id edit scenes [] inBranches
  unfold editBlock editHere position
  constructor
  · intro nothing
    rw [Option.or_eq_none_iff, Option.map_eq_none_iff, List.findIdx?_eq_none_iff] at nothing
    rw [mem_ids_iff]
    rintro ⟨m, hm, same | ⟨side, below⟩⟩
    · have other := nothing.1 m hm
      simp [same] at other
    · exact noBranch nothing.2 m hm side below
  · intro new edited
    rw [Option.or_eq_some_iff, Option.map_eq_some_iff] at edited
    rcases edited with ⟨i, found, rfl⟩ | ⟨-, below⟩
    · obtain ⟨hi, same, -⟩ := List.findIdx?_eq_some_iff_getElem.mp found
      exact ⟨[], scenes, i, scenes[i], rfl, List.getElem?_eq_getElem hi, by simpa using same, rfl⟩
    · exact inBranch new below

theorem editBlock_cases (id : NodeId) (edit : Block → Nat → Block) (scenes : Block) :
    EditsOf id edit scenes (editBlock id edit scenes) :=
  branches_induction (fun _ inBranches => editBlock_of_branches inBranches) scenes

/-- What is not found is not edited. -/
theorem editBlock_eq_none (h : find id scenes = none) (edit : Block → Nat → Block) :
    editBlock id edit scenes = none := by
  cases answer : editBlock id edit scenes with
  | none => rfl
  | some new =>
    obtain ⟨path, b, i, n, hb, hn, rfl, -⟩ := (editBlock_cases id edit scenes).2 new answer
    have inTree : n.id ∈ ids scenes :=
      List.mem_map_of_mem (mem_of_nodeAt (nodeAt_eq_some_iff.mpr ⟨b, hb, hn⟩))
    exact absurd inTree (not_mem_ids_iff.mpr h)

/-- Where identities are distinct, the block that is edited is the one that holds the node. -/
theorem editBlock_eq_some (distinct : (ids scenes).Nodup) (hb : resolve scenes path = some b)
    (hn : b[i]? = some n) (edit : Block → Nat → Block) :
    editBlock n.id edit scenes = some (withBlock scenes path (edit b i)) := by
  have place : nodeAt scenes path i = some n := nodeAt_eq_some_iff.mpr ⟨b, hb, hn⟩
  obtain ⟨missed, made⟩ := editBlock_cases n.id edit scenes
  cases answer : editBlock n.id edit scenes with
  | none => exact absurd (List.mem_map_of_mem (mem_of_nodeAt place)) (missed answer)
  | some new =>
    obtain ⟨path', b', i', n', hb', hn', same, rfl⟩ := made new answer
    have place' : nodeAt scenes path' i' = some n' := nodeAt_eq_some_iff.mpr ⟨b', hb', hn'⟩
    obtain ⟨rfl, rfl⟩ := nodeAt_unique distinct place' place same
    obtain rfl : b' = b := Option.some.inj (hb'.symm.trans hb)
    rfl

/-! ## The edits -/

/-- The nodes of a block with their places in it for numbers. -/
def counted (b : Block) : Block := b.mapIdx fun i n => n.withSeq (i + 1)

/-- Renumbering gives each node its place in the block. -/
theorem renumberFrom_eq (next : Nat) (b : Block) :
    renumberFrom next b = b.mapIdx fun i n => n.withSeq (next + i) := by
  induction b generalizing next with
  | nil => rfl
  | cons n ns ih =>
    rw [renumberFrom, ih, List.mapIdx_cons]
    simp only [Nat.add_zero, Nat.add_assoc, Nat.add_comm 1]

/-- A renumbered block is counted from one on. -/
theorem renumberBlock_eq (b : Block) : renumberBlock b = counted b := by
  rw [renumberBlock, renumberFrom_eq]
  simp only [Nat.add_comm 1]
  rfl

/-- A node that is inserted is counted with the others; behind the end it comes last. -/
theorem insertInto_eq (b : Block) (index : Nat) (n : Node) :
    insertInto b index n = counted (b.insertIdx (min index b.length) n) :=
  renumberBlock_eq _

/-- A tree has no node with an identity, and edits of that node answer nothing. -/
structure Unedited (scenes : Block) (id : NodeId) : Prop where
  find : find id scenes = none
  findPath : findPath id scenes = none
  update : ∀ f, update scenes id f = none
  replace : ∀ n, replace scenes id n = none
  remove : remove scenes id = none
  insert : ∀ side index n, insert scenes (.branch id side index) n = none

/-- A node with an identity is entry `i` of the block at a path. Edits of the node put another
block in the place of this one, inserting into a branch of the node puts another one in the
place of the branch, and both leave the rest of the tree alone. -/
structure EditedAt (scenes : Block) (id : NodeId) (node : Node) (path : BlockPath) (b : Block)
    (i : Nat) : Prop where
  find : find id scenes = some node
  findPath : findPath id scenes = some (path, i)
  block : resolve scenes path = some b
  entry : b[i]? = some node
  id_eq : node.id = id
  update : ∀ f, update scenes id f = some (withBlock scenes path (b.modify i f))
  replace : ∀ n, replace scenes id n = some (withBlock scenes path (b.set i n))
  remove : remove scenes id = some (withBlock scenes path (counted (b.eraseIdx i)))
  insert : ∀ side index n,
    let branch := node.branch side
    insert scenes (.branch id side index) n = some (withBlock scenes (path ++ [⟨i, side⟩])
      (counted (branch.insertIdx (min index branch.length) n)))
  rebuilt : ∀ c, Rebuilt scenes path c (withBlock scenes path c)
  rebuiltBranch : ∀ side c, Rebuilt scenes (path ++ [⟨i, side⟩]) c
    (withBlock scenes (path ++ [⟨i, side⟩]) c)

/-- Where no node is found there is none to edit. -/
theorem unedited_of_find (h : find id scenes = none) (h' : findPath id scenes = none) :
    Unedited scenes id where
  find := h
  findPath := h'
  update _ := editBlock_eq_none h _
  replace _ := editBlock_eq_none h _
  remove := editBlock_eq_none h _
  insert _ _ _ := editBlock_eq_none h _

/-- Inserting into a branch puts another block in its place. -/
theorem insert_branch_eq (distinct : (ids scenes).Nodup) (hb : resolve scenes path = some b)
    (hn : b[i]? = some n) (side : Bool) (index : Nat) (m : Node) :
    insert scenes (.branch n.id side index) m =
      some (withBlock scenes (path ++ [⟨i, side⟩])
        (counted ((n.branch side).insertIdx (min index (n.branch side).length) m))) := by
  rw [withBlock_concat hb hn, ← insertInto_eq]
  show update scenes n.id (fun p => p.withBranch side (insertInto (p.branch side) index m)) = _
  rw [update, editBlock_eq_some distinct hb hn, List.modify_eq_set_getElem?, hn]
  rfl

/-- Where identities are distinct, edits change the block that holds the node found. -/
theorem editedAt_of_find (distinct : (ids scenes).Nodup) (found : find id scenes = some n)
    (foundPath : findPath id scenes = some (path, i)) (hid : n.id = id)
    (hb : resolve scenes path = some b) (hn : b[i]? = some n) : EditedAt scenes id n path b i := by
  subst hid
  exact {
    find := found
    findPath := foundPath
    block := hb
    entry := hn
    id_eq := rfl
    update := fun f => editBlock_eq_some distinct hb hn _
    replace := fun m => by
      rw [List.set_eq_modify]
      exact editBlock_eq_some distinct hb hn _
    remove := by
      rw [← renumberBlock_eq]
      exact editBlock_eq_some distinct hb hn _
    insert := insert_branch_eq distinct hb hn
    rebuilt := rebuilt_withBlock hb
    rebuiltBranch := fun side => rebuilt_withBlock (resolve_branch hb hn side) }

/-- In a tree of distinct identities, an edit answers nothing if the node is not found. Else it
answers the tree with another block in the place of the one that holds the node, or in the
place of a branch of the node if it is inserted into, and with nothing else changed. Inserting
into the root gives the root with the node in it. -/
theorem edits_at_place (scenes : Block) (distinct : (ids scenes).Nodup) :
    (∀ id, Unedited scenes id ∨ ∃ n path b i, EditedAt scenes id n path b i) ∧
      ∀ index n, insert scenes (.root index) n =
        some (counted (scenes.insertIdx (min index scenes.length) n)) := by
  refine ⟨fun id => ?_, fun index n => congrArg some (insertInto_eq scenes index n)⟩
  rcases find_cases id scenes with ⟨notFound, noPath⟩ | ⟨n, path, i, found, foundPath, hid, place⟩
  · exact .inl (unedited_of_find notFound noPath)
  · obtain ⟨b, hb, hn⟩ := nodeAt_eq_some_iff.mp place
    exact .inr ⟨n, path, b, i, editedAt_of_find distinct found foundPath hid hb hn⟩

/-- A conditional with a conditional in its second branch. -/
def nested : Block :=
  (numberBlock 0 [.conditional ["$a", "==", "1"] [.dialogue "" "one"]
    [.conditional ["$a", "==", "2"] [.dialogue "" "two", .dialogue "" "and"] []],
    .dialogue "" "end"]).1

/-- The node with identity 4 in it is found two branches down and edited there. -/
theorem edits_at_place_nested :
    (ids nested).Nodup ∧ ∃ n path b i, EditedAt nested 4 n path b i := by
  have distinct : (ids nested).Nodup := by decide
  refine ⟨distinct, ?_⟩
  rcases (edits_at_place nested distinct).1 4 with unedited | edited
  · exact absurd unedited.remove (by decide)
  · exact edited

end VisualNovel.Script
