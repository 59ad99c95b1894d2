import Mathlib.Data.List.Nodup
import VisualNovel.Proofs.Script.Nodes
import VisualNovel.Script.Edit

/-!
# Places in a tree

A node of a tree is at a place: the path of the block that holds it, and its index there.
`find` answers a node by its identity and `findPath` answers a place. Both walk the tree in
preorder, so what they answer belongs together, also where an identity repeats:

> `find_cases`: either no node has the identity and nothing is found, or `find` answers the
> node at the place that `findPath` answers.

> `nodeAt_unique`: where identities are distinct, no other place has a node with that identity.

> `findPath_agrees`: so a node is found by its identity exactly if a place is, that place has
> the node, and where identities are distinct it is the only one.
-/

namespace VisualNovel.Script

open Node

variable {scenes b : Block} {path path' : BlockPath} {i i' : Nat} {n n' : Node} {id : NodeId}

/-- A path goes into a branch of a node and on from there. -/
theorem resolve_cons (scenes : Block) (step : BranchStep) (path : BlockPath) :
    resolve scenes (step :: path) =
      (scenes[step.index]?).bind fun n => resolve (n.branch step.side) path := by
  rw [resolve]
  cases scenes[step.index]? with
  | none => rfl
  | some n => rfl

/-- The last step of a path goes into a branch of a node in the block before. -/
theorem resolve_append (scenes : Block) (path : BlockPath) (step : BranchStep) :
    resolve scenes (path ++ [step]) =
      (resolve scenes path).bind fun b => (b[step.index]?).map (·.branch step.side) := by
  induction path generalizing scenes with
  | nil =>
    rw [List.nil_append, resolve_cons]
    show _ = (scenes[step.index]?).map fun n => n.branch step.side
    rw [Option.map_eq_bind]
    rfl
  | cons first path ih =>
    rw [List.cons_append, resolve_cons, resolve_cons, Option.bind_assoc]
    exact Option.bind_congr fun n _ => ih (n.branch first.side)

/-- The branches of a node at a place are one step further. -/
theorem resolve_branch (hb : resolve scenes path = some b) (hn : b[i]? = some n) (side : Bool) :
    resolve scenes (path ++ [⟨i, side⟩]) = some (n.branch side) := by
  rw [resolve_append, hb, Option.bind_some, hn]
  rfl

/-- The node at a place. -/
def nodeAt (scenes : Block) (path : BlockPath) (i : Nat) : Option Node :=
  (resolve scenes path).bind (·[i]?)

/-- A place further inside is one in a branch. -/
theorem nodeAt_cons (scenes : Block) (step : BranchStep) (path : BlockPath) (i : Nat) :
    nodeAt scenes (step :: path) i =
      (scenes[step.index]?).bind fun n => nodeAt (n.branch step.side) path i := by
  unfold nodeAt
  rw [resolve_cons, Option.bind_assoc]

/-- A node at a place is an entry of the block at its path. -/
theorem nodeAt_eq_some_iff :
    nodeAt scenes path i = some n ↔ ∃ b, resolve scenes path = some b ∧ b[i]? = some n :=
  Option.bind_eq_some_iff

/-! ## What is found -/

/-- The identities of the nodes of a tree, in preorder. -/
def ids (scenes : Block) : List NodeId := (blockNodes scenes).map (·.id)

/-- A node comes first, then its branches, then the nodes after it. -/
theorem ids_cons (n : Node) (ns : Block) :
    ids (n :: ns) = n.id :: (ids n.thenBranch ++ ids n.elseBranch) ++ ids ns := by
  unfold ids
  rw [blockNodes, nodes_eq]
  simp

/-- A node is looked for at the first one, in its branches, and then behind it. -/
theorem find_cons (id : NodeId) (n : Node) (ns : Block) :
    find id (n :: ns) =
      if n.id = id then some n
      else ((find id n.thenBranch).or (find id n.elseBranch)).or (find id ns) := by
  obtain ⟨_, _, _, _, _, _, _, _, _, _, _⟩ := n
  rw [find, findBelow]

/-- A place is looked for in the same order. -/
theorem findPathFrom_cons (id : NodeId) (index : Nat) (n : Node) (ns : Block) :
    findPathFrom id index (n :: ns) =
      if n.id = id then some ([], index)
      else (((findPathFrom id 0 n.thenBranch).map (enter index true)).or
        ((findPathFrom id 0 n.elseBranch).map (enter index false))).or
          (findPathFrom id (index + 1) ns) := by
  obtain ⟨_, _, _, _, _, _, _, _, _, _, _⟩ := n
  rw [findPathFrom, findPathBelow]

/-- A node is found exactly if one has the identity. -/
theorem not_mem_ids_iff : id ∉ ids scenes ↔ find id scenes = none := by
  induction scenes using tree_induction with
  | nil => simp [ids, blockNodes, find]
  | cons n ns ihThen ihElse ih =>
    rw [ids_cons, find_cons]
    by_cases hn : n.id = id
    · simp [hn]
    · simp [hn, Ne.symm hn, ihThen, ihElse, ih, and_assoc]

/-- What two searches in the same order answer is related if each of their parts is. -/
theorem rel_or {α β : Type} {r : α → β → Prop} {x x' : Option α} {y y' : Option β}
    (h : Option.Rel r x y) (h' : Option.Rel r x' y') : Option.Rel r (x.or x') (y.or y') := by
  cases h with
  | some related => exact .some related
  | none => exact h'

/-- A node with an identity, at a place. -/
def Holds (id : NodeId) (scenes : Block) (n : Node) (place : BlockPath × Nat) : Prop :=
  n.id = id ∧ nodeAt scenes place.1 place.2 = some n

/-- Behind any other nodes, a block is searched for a node and for its place alike. -/
theorem find_rel (id : NodeId) (b : Block) : ∀ before : Block,
    Option.Rel (Holds id (before ++ b)) (find id b) (findPathFrom id before.length b) := by
  induction b using tree_induction with
  | nil =>
    intro before
    rw [find, findPathFrom]
    exact .none
  | cons n ns ihThen ihElse ih =>
    intro before
    have here : (before ++ n :: ns)[before.length]? = some n := by simp
    rw [find_cons, findPathFrom_cons]
    split
    next hn => exact .some ⟨hn, here⟩
    -- What is found in a branch is seen through this node.
    have inside (side : Bool) {x : Option Node} {y : Option (BlockPath × Nat)}
        (h : Option.Rel (Holds id (n.branch side)) x y) :
        Option.Rel (Holds id (before ++ n :: ns)) x (y.map (enter before.length side)) := by
      cases h with
      | none => exact .none
      | some held =>
        refine .some ⟨held.1, ?_⟩
        rw [enter, nodeAt_cons, here]
        exact held.2
    have behind := ih (before ++ [n])
    rw [List.append_assoc, List.length_append] at behind
    exact rel_or (rel_or (inside true (ihThen [])) (inside false (ihElse []))) behind

/-- Either nothing is found, or a node and its place. -/
theorem find_cases (id : NodeId) (scenes : Block) :
    (find id scenes = none ∧ findPath id scenes = none) ∨
      ∃ n path i, find id scenes = some n ∧ findPath id scenes = some (path, i) ∧ n.id = id ∧
        nodeAt scenes path i = some n := by
  have searched := find_rel id scenes []
  rw [List.length_nil, List.nil_append] at searched
  show (_ ∧ findPathFrom id 0 scenes = none) ∨ ∃ n path i, _ ∧ findPathFrom id 0 scenes = _ ∧ _
  generalize find id scenes = x at searched
  generalize findPathFrom id 0 scenes = y at searched
  cases searched with
  | none => exact .inl ⟨rfl, rfl⟩
  | @some n place held => exact .inr ⟨n, place.1, place.2, rfl, rfl, held⟩

/-- A node that is found is at some place. -/
theorem place_of_find (found : find id scenes = some n) :
    n.id = id ∧ ∃ path b, ∃ i : Nat, resolve scenes path = some b ∧ b[i]? = some n := by
  rcases find_cases id scenes with ⟨notFound, -⟩ | ⟨n', path, i, found', -, hid, place⟩
  · rw [notFound] at found
    cases found
  · obtain rfl : n' = n := Option.some.inj (found'.symm.trans found)
    obtain ⟨b, hb, hn⟩ := nodeAt_eq_some_iff.mp place
    exact ⟨hid, path, b, i, hb, hn⟩

/-! ## No other place -/

theorem blockNodes_eq_flatMap (scenes : Block) : blockNodes scenes = scenes.flatMap nodes := by
  induction scenes with
  | nil => rfl
  | cons n ns ih => rw [blockNodes, ih, List.flatMap_cons]

theorem mem_nodes_self (n : Node) : n ∈ n.nodes := by
  rw [nodes_eq]
  exact List.mem_cons_self

/-- The nodes of a branch are nodes from the node down. -/
theorem mem_nodes_of_branch {m : Node} {side : Bool} (h : n ∈ blockNodes (m.branch side)) :
    n ∈ m.nodes := by
  rw [nodes_eq]
  refine List.mem_cons_of_mem m (List.mem_append.mpr ?_)
  cases side with
  | true => exact .inl h
  | false => exact .inr h

/-- A node at a place is one of the nodes of the tree. -/
theorem mem_of_nodeAt (h : nodeAt scenes path i = some n) : n ∈ blockNodes scenes := by
  induction path generalizing scenes with
  | nil =>
    rw [blockNodes_eq_flatMap]
    exact List.mem_flatMap.mpr ⟨n, List.mem_of_getElem? h, mem_nodes_self n⟩
  | cons step path ih =>
    rw [nodeAt_cons] at h
    obtain ⟨m, hm, below⟩ := Option.bind_eq_some_iff.mp h
    rw [blockNodes_eq_flatMap]
    exact List.mem_flatMap.mpr ⟨m, List.mem_of_getElem? hm, mem_nodes_of_branch (ih below)⟩

/-- Identities are distinct in a block if they are in each of its nodes with all that is below,
and no two of these share one. -/
theorem nodup_ids_iff : (ids scenes).Nodup ↔
    (∀ m ∈ scenes, (m.nodes.map (·.id)).Nodup) ∧
      scenes.Pairwise (Function.onFun List.Disjoint fun m => m.nodes.map (·.id)) := by
  unfold ids
  rw [blockNodes_eq_flatMap, List.map_flatMap, List.nodup_flatMap]

variable {m m' : Node} {k k' : Nat}

/-- An identity is found from one node of the block only. -/
theorem entry_unique (distinct : (ids scenes).Nodup) (hm : scenes[k]? = some m)
    (hm' : scenes[k']? = some m') (hn : n ∈ m.nodes) (hn' : n' ∈ m'.nodes)
    (same : n.id = n'.id) : k = k' := by
  have apart := List.pairwise_iff_getElem.mp (nodup_ids_iff.mp distinct).2
  have inFirst : n.id ∈ m.nodes.map (·.id) := List.mem_map_of_mem hn
  have inSecond : n.id ∈ m'.nodes.map (·.id) := same ▸ List.mem_map_of_mem hn'
  obtain ⟨hk, rfl⟩ := List.getElem?_eq_some_iff.mp hm
  obtain ⟨hk', rfl⟩ := List.getElem?_eq_some_iff.mp hm'
  rcases Nat.lt_trichotomy k k' with lt | eq | gt
  · exact (apart k k' hk hk' lt inFirst inSecond).elim
  · exact eq
  · exact (apart k' k hk' hk gt inSecond inFirst).elim

/-- The identities in a node: its own and those in either branch are apart. -/
theorem nodup_nodes_iff : (m.nodes.map (·.id)).Nodup ↔
    (∀ side, m.id ∉ ids (m.branch side)) ∧ (∀ side, (ids (m.branch side)).Nodup) ∧
      List.Disjoint (ids m.thenBranch) (ids m.elseBranch) := by
  rw [nodes_eq, List.map_cons, List.map_append, List.nodup_cons, List.nodup_append',
    List.mem_append]
  show (¬(m.id ∈ ids m.thenBranch ∨ m.id ∈ ids m.elseBranch) ∧ (ids m.thenBranch).Nodup ∧
    (ids m.elseBranch).Nodup ∧ _) ↔ _
  simp only [Bool.forall_bool, not_or]
  show _ ↔ (m.id ∉ ids m.elseBranch ∧ m.id ∉ ids m.thenBranch) ∧
    ((ids m.elseBranch).Nodup ∧ (ids m.thenBranch).Nodup) ∧ _
  tauto

/-- Where identities are distinct, a node of the block has none that is in a branch. -/
theorem id_ne_below {step : BranchStep} (distinct : (ids scenes).Nodup) (h : scenes[i]? = some n)
    (h' : nodeAt scenes (step :: path) i' = some n') : n.id ≠ n'.id := by
  intro same
  rw [nodeAt_cons] at h'
  obtain ⟨m, hm, below⟩ := Option.bind_eq_some_iff.mp h'
  have inside := mem_of_nodeAt below
  obtain rfl : i = step.index :=
    entry_unique distinct h hm (mem_nodes_self n) (mem_nodes_of_branch inside) same
  obtain rfl : n = m := Option.some.inj (h.symm.trans hm)
  have inNode := (nodup_ids_iff.mp distinct).1 n (List.mem_of_getElem? h)
  refine (nodup_nodes_iff.mp inNode).1 step.side ?_
  rw [same]
  exact List.mem_map_of_mem inside

/-- Where identities are distinct, a node with an identity is at one place only. -/
theorem nodeAt_unique (distinct : (ids scenes).Nodup) (h : nodeAt scenes path i = some n)
    (h' : nodeAt scenes path' i' = some n') (same : n.id = n'.id) : path = path' ∧ i = i' := by
  induction path generalizing scenes path' with
  | nil =>
    cases path' with
    | nil =>
      exact ⟨rfl, entry_unique distinct h h' (mem_nodes_self n) (mem_nodes_self n') same⟩
    | cons step' path' => exact absurd same (id_ne_below distinct h h')
  | cons step path ih =>
    cases path' with
    | nil => exact absurd same.symm (id_ne_below distinct h' h)
    | cons step' path' =>
      rw [nodeAt_cons] at h h'
      obtain ⟨m, hm, below⟩ := Option.bind_eq_some_iff.mp h
      obtain ⟨m', hm', below'⟩ := Option.bind_eq_some_iff.mp h'
      have inside := mem_of_nodeAt below
      have inside' := mem_of_nodeAt below'
      have entry : step.index = step'.index := entry_unique distinct hm hm'
        (mem_nodes_of_branch inside) (mem_nodes_of_branch inside') same
      obtain rfl : m = m' := Option.some.inj (hm.symm.trans (entry ▸ hm'))
      have inNode := (nodup_ids_iff.mp distinct).1 m (List.mem_of_getElem? hm)
      obtain ⟨-, inBranch, apart⟩ := nodup_nodes_iff.mp inNode
      have inFirst : n.id ∈ ids (m.branch step.side) := List.mem_map_of_mem inside
      have inSecond : n.id ∈ ids (m.branch step'.side) := same ▸ List.mem_map_of_mem inside'
      obtain ⟨index, side⟩ := step
      obtain ⟨index', side'⟩ := step'
      obtain rfl : index = index' := entry
      -- The branches of a node have no identity in common, so both places are in one of them.
      obtain rfl : side = side' := by
        cases side with
        | true => cases side' with
          | true => rfl
          | false => exact (apart inFirst inSecond).elim
        | false => cases side' with
          | true => exact (apart inSecond inFirst).elim
          | false => rfl
      obtain ⟨rfl, rfl⟩ := ih (inBranch side) below below'
      exact ⟨rfl, rfl⟩

/-! ## The three ways to a node -/

/-- Where identities are distinct, a node and its place are what is found for its identity. -/
theorem found_of_nodeAt (distinct : (ids scenes).Nodup) (h : nodeAt scenes path i = some n) :
    find n.id scenes = some n ∧ findPath n.id scenes = some (path, i) := by
  rcases find_cases n.id scenes with ⟨noNode, -⟩ | ⟨n', path', i', found, foundPath, hid, place⟩
  · exact absurd (List.mem_map_of_mem (mem_of_nodeAt h)) (not_mem_ids_iff.mpr noNode)
  · obtain ⟨rfl, rfl⟩ := nodeAt_unique distinct h place hid.symm
    obtain rfl : n = n' := Option.some.inj (h.symm.trans place)
    exact ⟨found, foundPath⟩

/-- A place is found exactly if a node is, also where identities repeat, and the block at its
path has that node at its index. Where identities are distinct, every place of a node with the
identity is the one that is found. -/
theorem findPath_agrees (scenes : Block) (id : NodeId) :
    ((∃ path i, findPath id scenes = some (path, i)) ↔ ∃ n, find id scenes = some n) ∧
      (∀ path i, findPath id scenes = some (path, i) →
        ∃ b n, resolve scenes path = some b ∧ b[i]? = some n ∧ find id scenes = some n) ∧
      ((ids scenes).Nodup → ∀ path i b n, resolve scenes path = some b → b[i]? = some n →
        n.id = id → findPath id scenes = some (path, i)) := by
  refine ⟨?_, ?_, ?_⟩
  · rcases find_cases id scenes with ⟨noNode, noPlace⟩ | ⟨n, path, i, found, foundPath, -, -⟩
    · simp [noNode, noPlace]
    · simp [found, foundPath]
  · intro path i foundPath
    rcases find_cases id scenes with ⟨-, noPlace⟩ | ⟨n, path', i', found, foundPath', -, place⟩
    · rw [noPlace] at foundPath
      cases foundPath
    · obtain ⟨rfl, rfl⟩ := Prod.mk.inj (Option.some.inj (foundPath.symm.trans foundPath'))
      obtain ⟨b, hb, hn⟩ := nodeAt_eq_some_iff.mp place
      exact ⟨b, n, hb, hn, found⟩
  · rintro distinct path i b n hb hn rfl
    exact (found_of_nodeAt distinct (nodeAt_eq_some_iff.mpr ⟨b, hb, hn⟩)).2

/-- A line, and a conditional with another one in its second branch. -/
def forked : Block :=
  (numberBlock 0 [.dialogue "" "one", .conditional ["$a", "==", "1"] [.dialogue "" "two"]
    [.conditional ["$b", "==", "1"] [.dialogue "" "three"] []]]).1

/-- Its innermost line is found at its place two branches down. Where the tree stands twice, and
so every identity does, the place and the node found are those of the first copy. -/
theorem findPath_agrees_forked :
    (ids forked).Nodup ∧ findPath 4 forked = some ([⟨1, false⟩, ⟨0, true⟩], 0) ∧
      ¬(ids (forked ++ forked)).Nodup ∧ ∃ b n,
        resolve (forked ++ forked) [⟨1, false⟩, ⟨0, true⟩] = some b ∧ b[0]? = some n ∧
          find 4 (forked ++ forked) = some n := by
  have distinct : (ids forked).Nodup := by decide
  obtain ⟨-, -, unique⟩ := findPath_agrees forked 4
  obtain ⟨-, placed, -⟩ := findPath_agrees (forked ++ forked) 4
  exact ⟨distinct, unique distinct _ _ _ _ rfl rfl rfl, by decide, placed _ _ rfl⟩

end VisualNovel.Script
