import VisualNovel.Proofs.Script.Numbering

/-!
# Edits of different nodes

An edit of one node rebuilds the nodes on the way to it, so that the next one finds another
tree. What a function makes of a node may not hang on that: `Local` functions leave identity and
branches alone and do the same whatever the branches hold. For these the search and the
rebuilding drop out:

> `update_eq_map`: editing the node with an identity is going through the whole tree and editing
> what has that identity.

Two such passes are one pass (`mapBlock_mapBlock`), and what it does at each node does not depend
on their order:

> `update_comm`: edits of different nodes commute, also where one node is in a branch of the other.
-/

namespace VisualNovel

namespace Node

variable {n m : Node}

/-- The node with nothing in its branches. -/
def bare (n : Node) : Node := (n.withBranch true []).withBranch false []

theorem bare_withBranch (n : Node) (side : Bool) (b : Block) :
    (n.withBranch side b).bare = n.bare := by
  cases side <;> rfl

/-- A node is what it is but for its branches, and its branches. -/
theorem eq_of_bare (h : n.bare = m.bare) (branches : ∀ side, n.branch side = m.branch side) :
    n = m := by
  have thenBranch : n.thenBranch = m.thenBranch := branches true
  have elseBranch : n.elseBranch = m.elseBranch := branches false
  obtain ⟨_, _, _, _, _, _, _, _, _, _, _⟩ := n
  obtain ⟨_, _, _, _, _, _, _, _, _, _, _⟩ := m
  simp_all [bare, withBranch]

end Node

namespace Script

open Node

/-- A function on nodes that leaves the identity and the branches alone, and all else to which
does not depend on the branches. -/
structure Local (f : Node → Node) : Prop where
  id_eq : ∀ n, (f n).id = n.id
  branch_eq : ∀ n side, (f n).branch side = n.branch side
  bare_eq : ∀ n m, n.bare = m.bare → (f n).bare = (f m).bare

/-- A local function may be applied before a branch is put in, or after. -/
theorem Local.withBranch {f : Node → Node} (hf : Local f) (n : Node) (side : Bool) (b : Block) :
    f (n.withBranch side b) = (f n).withBranch side b := by
  refine eq_of_bare ?_ fun s => ?_
  · rw [bare_withBranch]
    exact hf.bare_eq _ _ (bare_withBranch n side b)
  · rw [hf.branch_eq]
    by_cases same : s = side
    · rw [same, branch_withBranch, branch_withBranch]
    · rw [Bool.eq_not.mpr same, branch_withBranch_other, branch_withBranch_other, hf.branch_eq]

/-! ## Going through a tree -/

mutual

/-- The node with a function applied to the nodes in its branches, and then to itself. -/
def mapNode (f : Node → Node) : Node → Node
  | ⟨i, seq, kind, speaker, text, label, token, params, options, t, e⟩ =>
    f ⟨i, seq, kind, speaker, text, label, token, params, options, mapBlock f t, mapBlock f e⟩

/-- A function applied to every node of a tree, to those in branches first. -/
def mapBlock (f : Node → Node) : Block → Block
  | [] => []
  | n :: ns => mapNode f n :: mapBlock f ns

end

variable {scenes b : Block} {path : BlockPath} {i k : Nat} {n m : Node} {id : NodeId}
  {f g : Node → Node}

theorem mapBlock_eq_map (f : Node → Node) (b : Block) : mapBlock f b = b.map (mapNode f) := by
  induction b with
  | nil => rfl
  | cons n ns ih => rw [mapBlock, ih, List.map_cons]

theorem mapNode_eq (f : Node → Node) (n : Node) :
    mapNode f n = f ((n.withBranch true (mapBlock f n.thenBranch)).withBranch false
      (mapBlock f n.elseBranch)) := by
  obtain ⟨_, _, _, _, _, _, _, _, _, _, _⟩ := n
  rw [mapNode]
  rfl

namespace Local

/-- A local function keeps identities. -/
theorem id_mapNode (hf : Local f) (n : Node) : (mapNode f n).id = n.id := by
  rw [mapNode_eq, hf.id_eq]
  rfl

theorem thenBranch_mapNode (hf : Local f) (n : Node) :
    (mapNode f n).thenBranch = mapBlock f n.thenBranch := by
  rw [mapNode_eq]
  exact hf.branch_eq _ true

theorem elseBranch_mapNode (hf : Local f) (n : Node) :
    (mapNode f n).elseBranch = mapBlock f n.elseBranch := by
  rw [mapNode_eq]
  exact hf.branch_eq _ false

/-- Going through a tree keeps the identities in it. -/
theorem ids_mapBlock (hf : Local f) (b : Block) : ids (mapBlock f b) = ids b := by
  induction b using tree_induction with
  | nil => rfl
  | cons n ns ihThen ihElse ih =>
    rw [mapBlock, ids_cons, ids_cons, hf.id_mapNode, hf.thenBranch_mapNode,
      hf.elseBranch_mapNode, ihThen, ihElse, ih]

/-- Going through a tree twice is going through it once with both functions. -/
theorem mapBlock_mapBlock (hf : Local f) (g : Node → Node) (b : Block) :
    mapBlock g (mapBlock f b) = mapBlock (g ∘ f) b := by
  induction b using tree_induction with
  | nil => rfl
  | cons n ns ihThen ihElse ih =>
    rw [mapBlock, mapBlock, mapBlock, ih, mapNode_eq g, hf.thenBranch_mapNode,
      hf.elseBranch_mapNode, ihThen, ihElse]
    -- The first function saw other branches than the second one leaves, and does not depend on it.
    rw [mapNode_eq f, mapNode_eq (g ∘ f), ← hf.withBranch, ← hf.withBranch]
    rfl

end Local

/-! ## One node -/

/-- The function applied to a node if it has the identity. -/
def only (id : NodeId) (f : Node → Node) (n : Node) : Node := if n.id = id then f n else n

/-- A local function of one node is local. -/
theorem Local.only (hf : Local f) (id : NodeId) : Local (only id f) := by
  refine ⟨fun n => ?_, fun n side => ?_, fun n m same => ?_⟩
  · unfold Script.only
    split
    · exact hf.id_eq n
    · rfl
  · unfold Script.only
    split
    · exact hf.branch_eq n side
    · rfl
  · have sameId : n.id = m.id := show n.bare.id = m.bare.id by rw [same]
    unfold Script.only
    rw [sameId]
    split
    · exact hf.bare_eq n m same
    · exact same

theorem only_of_ne (h : n.id ≠ id) : only id f n = n := if_neg h

/-- A node that has another identity changes in its branches at most. -/
theorem mapNode_only_of_ne (h : n.id ≠ id) :
    mapNode (only id f) n = (n.withBranch true (mapBlock (only id f) n.thenBranch)).withBranch
      false (mapBlock (only id f) n.elseBranch) := by
  rw [mapNode_eq]
  exact only_of_ne h

/-- Where no node has the identity nothing changes. -/
theorem mapBlock_only_of_not_mem (h : id ∉ ids b) : mapBlock (only id f) b = b := by
  induction b using tree_induction with
  | nil => rfl
  | cons n ns ihThen ihElse ih =>
    rw [ids_cons] at h
    simp only [List.cons_append, List.mem_cons, List.mem_append, not_or] at h
    obtain ⟨ne, ⟨noThen, noElse⟩, noOther⟩ := h
    rw [mapBlock, ih noOther, mapNode_only_of_ne (Ne.symm ne), ihThen noThen, ihElse noElse,
      withBranch_branches]

theorem mapNode_only_of_not_mem (h : id ∉ n.nodes.map (·.id)) : mapNode (only id f) n = n := by
  have inBlock : id ∉ ids [n] := by
    rwa [ids, blockNodes, blockNodes, List.append_nil]
  have same := mapBlock_only_of_not_mem (f := f) inBlock
  rw [mapBlock] at same
  exact (List.cons.inj same).1

/-- A node with the identity is edited, and the nodes in its branches are not. -/
theorem mapNode_only_self (h : ∀ side, n.id ∉ ids (n.branch side)) :
    mapNode (only n.id f) n = f n := by
  have noThen : n.id ∉ ids n.thenBranch := h true
  have noElse : n.id ∉ ids n.elseBranch := h false
  rw [mapNode_eq, mapBlock_only_of_not_mem noThen, mapBlock_only_of_not_mem noElse,
    withBranch_branches, only, if_pos rfl]

/-- A node above the one with the identity changes in the branch that holds it. -/
theorem mapNode_only_branch {side : Bool} (ne : m.id ≠ id) (other : id ∉ ids (m.branch !side)) :
    mapNode (only id f) m = m.withBranch side (mapBlock (only id f) (m.branch side)) := by
  rw [mapNode_only_of_ne ne]
  cases side with
  | true =>
    have noElse : id ∉ ids m.elseBranch := other
    rw [mapBlock_only_of_not_mem noElse]
    exact withBranch_branch _ false
  | false =>
    have noThen : id ∉ ids m.thenBranch := other
    rw [mapBlock_only_of_not_mem noThen]
    show (m.withBranch true (m.branch true)).withBranch false _ = _
    rw [withBranch_branch]
    rfl

/-- An identity in one branch is not in the other where the two have none in common. -/
theorem not_mem_other_branch (apart : List.Disjoint (ids m.thenBranch) (ids m.elseBranch))
    {side : Bool} (here : id ∈ ids (m.branch side)) : id ∉ ids (m.branch !side) := by
  cases side with
  | true => exact fun there => apart here there
  | false => exact fun there => apart there here

/-- Where identities are distinct, one node of the block changes. -/
theorem mapBlock_only_eq_set (distinct : (ids scenes).Nodup) (hm : scenes[k]? = some m)
    (hn : n ∈ m.nodes) :
    mapBlock (only n.id f) scenes = scenes.set k (mapNode (only n.id f) m) := by
  rw [mapBlock_eq_map]
  refine List.ext_getElem? fun j => ?_
  rw [List.getElem?_map]
  by_cases here : k = j
  · subst here
    obtain ⟨hk, rfl⟩ := List.getElem?_eq_some_iff.mp hm
    rw [hm, List.getElem?_set_self hk]
    rfl
  · rw [List.getElem?_set_ne here]
    cases hother : scenes[j]? with
    | none => rfl
    | some other =>
      refine congrArg some (mapNode_only_of_not_mem fun inOther => here ?_)
      obtain ⟨n', hn', same⟩ := List.mem_map.mp inOther
      exact entry_unique distinct hm hother hn hn' same.symm

/-- Rebuilding the block of a node, and the nodes on the way there, edits that node only. -/
theorem withBlock_modify_eq_map (f : Node → Node) (distinct : (ids scenes).Nodup)
    (hb : resolve scenes path = some b) (hn : b[i]? = some n) :
    withBlock scenes path (b.modify i f) = mapBlock (only n.id f) scenes := by
  -- Either way one entry of the block changes: the node itself, or the one it is in a branch of.
  induction path generalizing scenes with
  | nil =>
    obtain rfl : scenes = b := Option.some.inj hb
    have inNode := (nodup_ids_iff.mp distinct).1 n (List.mem_of_getElem? hn)
    rw [withBlock_nil, mapBlock_only_eq_set distinct hn (mem_nodes_self n),
      mapNode_only_self (nodup_nodes_iff.mp inNode).1, List.modify_eq_set_getElem?, hn]
    rfl
  | cons step path ih =>
    rw [resolve_cons] at hb
    obtain ⟨m, hm, below⟩ := Option.bind_eq_some_iff.mp hb
    have inside : n ∈ blockNodes (m.branch step.side) :=
      mem_of_nodeAt (nodeAt_eq_some_iff.mpr ⟨b, below, hn⟩)
    have inNode := (nodup_ids_iff.mp distinct).1 m (List.mem_of_getElem? hm)
    obtain ⟨notIn, inBranch, apart⟩ := nodup_nodes_iff.mp inNode
    have here : n.id ∈ ids (m.branch step.side) := List.mem_map_of_mem inside
    have above : m.id ≠ n.id := fun same => notIn step.side (same ▸ here)
    rw [mapBlock_only_eq_set distinct hm (mem_nodes_of_branch inside),
      mapNode_only_branch above (not_mem_other_branch apart here),
      ← ih (inBranch step.side) below, withBlock_cons hm]

/-- Where identities are distinct, editing the node with an identity is going through the whole
tree and editing what has that identity. -/
theorem update_eq_map (distinct : (ids scenes).Nodup) (h : id ∈ ids scenes) (f : Node → Node) :
    update scenes id f = some (mapBlock (only id f) scenes) := by
  cases found : find id scenes with
  | none => exact absurd h (not_mem_ids_iff.mpr found)
  | some n =>
    obtain ⟨rfl, path, b, i, hb, hn⟩ := place_of_find found
    rw [update, editBlock_eq_some distinct hb hn, withBlock_modify_eq_map f distinct hb hn]

/-- The node with the identity is found in the new tree, edited. -/
theorem find_update (distinct : (ids scenes).Nodup) (hf : Local f)
    (found : find id scenes = some n) :
    ∃ t, update scenes id f = some t ∧ find id t = some (f n) := by
  obtain ⟨rfl, path, b, i, hb, hn⟩ := place_of_find found
  refine ⟨_, editBlock_eq_some distinct hb hn _, ?_⟩
  have edited : (b.modify i f)[i]? = some (f n) := by
    rw [List.getElem?_modify, hn]
    simp
  have distinctNew : (ids (withBlock scenes path (b.modify i f))).Nodup := by
    rwa [withBlock_modify_eq_map f distinct hb hn, (hf.only n.id).ids_mapBlock]
  have placeNew := nodeAt_eq_some_iff.mpr ⟨_, resolve_withBlock hb (b.modify i f), edited⟩
  rw [← hf.id_eq n]
  exact (found_of_nodeAt distinctNew placeNew).1

/-! ## Two nodes -/

/-- Functions of different nodes trade places, if they are local. -/
theorem only_comm {a b : NodeId} (ne : a ≠ b) (hf : Local f) (hg : Local g) :
    only b g ∘ only a f = only a f ∘ only b g := by
  funext n
  show only b g (only a f n) = only a f (only b g n)
  by_cases ha : n.id = a
  · have after : (only a f n).id ≠ b := by rwa [(hf.only a).id_eq, ha]
    rw [only_of_ne after, only_of_ne (ha.trans_ne ne)]
  · have after : (only b g n).id ≠ a := by rwa [(hg.only b).id_eq]
    rw [only_of_ne after, only_of_ne ha]

/-- Where identities are distinct, two functions that leave identity and branches alone and do
not depend on branches can be applied to two nodes of a tree in either order: both edits succeed,
whichever comes first, and the trees are the same. -/
theorem update_comm (scenes : Block) (distinct : (ids scenes).Nodup) {a b : NodeId}
    (ha : a ∈ ids scenes) (hb : b ∈ ids scenes) (ne : a ≠ b) {f g : Node → Node} (hf : Local f)
    (hg : Local g) :
    ∃ s s' t, update scenes a f = some s ∧ update s b g = some t ∧
      update scenes b g = some s' ∧ update s' a f = some t := by
  -- Either tree after one edit has the identities of the tree before it.
  have idsA := (hf.only a).ids_mapBlock scenes
  have idsB := (hg.only b).ids_mapBlock scenes
  refine ⟨_, _, mapBlock (only b g ∘ only a f) scenes, update_eq_map distinct ha f, ?_,
    update_eq_map distinct hb g, ?_⟩
  · rw [update_eq_map (idsA ▸ distinct) (idsA ▸ hb), (hf.only a).mapBlock_mapBlock]
  · rw [update_eq_map (idsB ▸ distinct) (idsB ▸ ha), (hg.only b).mapBlock_mapBlock,
      only_comm ne hf hg]

/-! ## Edits of words and parameters -/

theorem local_withToken (word : String) : Local (·.withToken word) := by
  refine ⟨fun _ => rfl, fun _ _ => rfl, fun n m same => ?_⟩
  show n.bare.withToken word = m.bare.withToken word
  rw [same]

/-- Parameters may be written in view of the old ones, as coordinates are. -/
theorem local_withParams (write : List String → List String) :
    Local fun n => n.withParams (write n.params) := by
  refine ⟨fun _ => rfl, fun _ _ => rfl, fun n m same => ?_⟩
  show n.bare.withParams (write n.bare.params) = m.bare.withParams (write m.bare.params)
  rw [same]

/-- The word of a conditional, and the coordinates of the move in one of its branches. -/
theorem update_comm_moving :
    let move : Node → Node := fun n => n.withParams (writeCoordinates n.params (1, 2) 30 40)
    (ids moving).Nodup ∧ ∃ s s' t,
      update moving 1 (·.withToken "@when") = some s ∧ update s 2 move = some t ∧
      update moving 2 move = some s' ∧ update s' 1 (·.withToken "@when") = some t := by
  intro move
  have distinct : (ids moving).Nodup := by decide
  exact ⟨distinct, update_comm moving distinct (by decide) (by decide) (by decide)
    (local_withToken "@when") (local_withParams fun params => writeCoordinates params (1, 2) 30 40)⟩

end Script

end VisualNovel
