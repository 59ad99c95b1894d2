import VisualNovel.Script.Node

/-!
# The nodes of a tree

`Node.blockNodes` lists the nodes of a block at every depth. What is said of each of
them is said of the first node, of its branches and of the nodes after it
(`forall_blockNodes_cons`); and what holds of a block if it holds of these three blocks
holds of every block (`tree_induction`), as does what holds of a block if it holds of all the
branches in it (`branches_induction`).
-/

namespace VisualNovel.Node

mutual

/-- Induction on the branches of a node, together with the blocks below. -/
theorem branch_induction {motive : Block → Prop} (nil : motive [])
    (cons : ∀ n ns, motive n.thenBranch → motive n.elseBranch → motive ns → motive (n :: ns))
    (n : Node) : motive n.thenBranch ∧ motive n.elseBranch := by
  match n with
  | ⟨_, _, _, _, _, _, _, _, _, t, e⟩ =>
    exact ⟨tree_induction nil cons t, tree_induction nil cons e⟩

/-- Induction on a block: on the branches of its first node and on the nodes after it. -/
theorem tree_induction {motive : Block → Prop} (nil : motive [])
    (cons : ∀ n ns, motive n.thenBranch → motive n.elseBranch → motive ns → motive (n :: ns))
    (b : Block) : motive b := by
  match b with
  | [] => exact nil
  | n :: ns =>
    obtain ⟨ht, he⟩ := branch_induction nil cons n
    exact cons n ns ht he (tree_induction nil cons ns)

end

/-- What holds of a block if it holds of all branches of its nodes holds of every block. -/
theorem branches_induction {motive : Block → Prop}
    (step : ∀ b, (∀ m ∈ b, ∀ side, motive (m.branch side)) → motive b) (b : Block) : motive b := by
  refine step b ?_
  induction b using tree_induction with
  | nil => exact fun m hm => absurd hm List.not_mem_nil
  | cons n ns ihThen ihElse ih =>
    refine List.forall_mem_cons.mpr ⟨fun side => ?_, ih⟩
    cases side with
    | true => exact step n.thenBranch ihThen
    | false => exact step n.elseBranch ihElse

mutual

/-- The nodes from here down, in preorder. -/
def nodes (n : Node) : List Node :=
  match n with
  | ⟨_, _, _, _, _, _, _, _, _, t, e⟩ => n :: (blockNodes t ++ blockNodes e)

/-- The nodes of a block at every depth, in preorder. -/
def blockNodes : Block → List Node
  | [] => []
  | n :: ns => nodes n ++ blockNodes ns

end

/-- A node comes before those of its branches. -/
theorem nodes_eq (n : Node) :
    n.nodes = n :: (blockNodes n.thenBranch ++ blockNodes n.elseBranch) := by
  obtain ⟨_, _, _, _, _, _, _, _, _, _, _⟩ := n
  rw [nodes]

/-- The nodes of one block come before those of the next. -/
theorem blockNodes_append (b c : Block) :
    blockNodes (b ++ c) = blockNodes b ++ blockNodes c := by
  induction b with
  | nil => rw [blockNodes]; rfl
  | cons n ns ih => rw [List.cons_append, blockNodes, blockNodes, ih, List.append_assoc]

variable {P : Node → Prop}

/-- What is said of all nodes of a block is said of the first one, of those of its two branches,
and of the nodes after it. -/
theorem forall_blockNodes_cons {n : Node} {ns : Block} :
    (∀ m ∈ blockNodes (n :: ns), P m) ↔
      P n ∧ (∀ m ∈ blockNodes n.thenBranch, P m) ∧ (∀ m ∈ blockNodes n.elseBranch, P m) ∧
        ∀ m ∈ blockNodes ns, P m := by
  rw [blockNodes, nodes_eq]
  simp only [List.cons_append, List.forall_mem_cons, List.forall_mem_append, and_assoc]

/-- What is said of all nodes of two blocks is said of those of either. -/
theorem forall_blockNodes_append {b c : Block} :
    (∀ m ∈ blockNodes (b ++ c), P m) ↔ (∀ m ∈ blockNodes b, P m) ∧ ∀ m ∈ blockNodes c, P m := by
  rw [blockNodes_append, List.forall_mem_append]

/-- What holds at every depth holds in either branch of each node of the block. -/
theorem forall_branch {n : Node} {ns : Block} (h : ∀ m ∈ blockNodes (n :: ns), P m)
    (side : Bool) : ∀ m ∈ blockNodes (n.branch side), P m := by
  obtain ⟨-, ht, he, -⟩ := forall_blockNodes_cons.mp h
  cases side with
  | true => exact ht
  | false => exact he

/-! ## Structural equality -/

mutual

/-- Nodes are structurally equal if their contents are equal. -/
theorem sameContent_iff (n m : Node) : sameContent n m = true ↔ n.content = m.content := by
  match n, m with
  | ⟨_, seq, kind, speaker, text, label, token, params, options, t, e⟩,
    ⟨_, seq', kind', speaker', text', label', token', params', options', t', e'⟩ =>
    rw [sameContent, content, content]
    simp only [Bool.and_eq_true, beq_iff_eq, sameBlock_iff t t', sameBlock_iff e e', mk.injEq,
      true_and, and_assoc]

/-- Blocks are the same, identities apart, if their contents are equal. -/
theorem sameBlock_iff (b c : Block) : sameBlock b c = true ↔ blockContent b = blockContent c := by
  match b, c with
  | [], [] => simp [sameBlock]
  | [], m :: ms => simp [sameBlock, blockContent]
  | n :: ns, [] => simp [sameBlock, blockContent]
  | n :: ns, m :: ms =>
    rw [sameBlock, blockContent, blockContent, Bool.and_eq_true, sameContent_iff n m,
      sameBlock_iff ns ms, List.cons.injEq]

end

/-- The content of a node is the node without identities, in its branches too. -/
theorem content_eq (n : Node) :
    n.content =
      { n with
        id := 0
        thenBranch := blockContent n.thenBranch
        elseBranch := blockContent n.elseBranch } := by
  obtain ⟨_, _, _, _, _, _, _, _, _, _, _⟩ := n
  rfl

/-- The content of a tree has no identities left to forget. -/
theorem blockContent_blockContent (b : Block) : blockContent (blockContent b) = blockContent b := by
  induction b using tree_induction with
  | nil => rfl
  | cons n ns ihThen ihElse ih =>
    rw [blockContent, blockContent, ih, content_eq n, content_eq]
    simp [ihThen, ihElse]

/-! ## Sizes -/

/-- A node counts itself and what its branches count. -/
theorem size_eq (n : Node) : n.size = 1 + blockSize n.thenBranch + blockSize n.elseBranch := by
  obtain ⟨_, _, _, _, _, _, _, _, _, _, _⟩ := n
  rw [size]

theorem size_pos (n : Node) : 0 < n.size := by
  rw [size_eq]
  omega

/-- The size of a block is the number of its nodes at every depth. -/
theorem length_blockNodes (b : Block) : (blockNodes b).length = blockSize b := by
  induction b using tree_induction with
  | nil => rfl
  | cons n ns ihThen ihElse ih =>
    rw [blockNodes, nodes_eq, blockSize, size_eq]
    simp only [List.length_append, List.length_cons, ihThen, ihElse, ih]
    omega

theorem blockSize_append (b c : Block) : blockSize (b ++ c) = blockSize b + blockSize c := by
  induction b with
  | nil => simp [blockSize]
  | cons n ns ih => rw [List.cons_append, blockSize, blockSize, ih, Nat.add_assoc]

/-- A branch is smaller than its node. -/
theorem blockSize_branch_lt (n : Node) (side : Bool) : blockSize (n.branch side) < n.size := by
  rw [size_eq]
  cases side with
  | true => show blockSize n.thenBranch < _; omega
  | false => show blockSize n.elseBranch < _; omega

/-! ## Writing what is there -/

theorem withSeq_seq (n : Node) : n.withSeq n.seq = n := by
  obtain ⟨_, _, _, _, _, _, _, _, _, _, _⟩ := n
  rfl

/-- The branch that is put in last is the one that is there. -/
theorem withBranch_withBranch (n : Node) (side : Bool) (b c : Block) :
    (n.withBranch side b).withBranch side c = n.withBranch side c := by
  cases side <;> rfl

/-- Putting in the branch that is there changes nothing. -/
theorem withBranch_branch (n : Node) (side : Bool) : n.withBranch side (n.branch side) = n := by
  obtain ⟨_, _, _, _, _, _, _, _, _, _, _⟩ := n
  cases side <;> rfl

theorem withBranch_branches (n : Node) :
    (n.withBranch true n.thenBranch).withBranch false n.elseBranch = n := by
  obtain ⟨_, _, _, _, _, _, _, _, _, _, _⟩ := n
  rfl

end VisualNovel.Node
