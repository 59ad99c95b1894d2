import VisualNovel.Proofs.Script.Nodes
import VisualNovel.Script.Check

/-!
# What the check of a script sees

The check walks the root and the branches of conditionals, at every depth. `Within` names
the nodes there, without the walk, and `Resolves` says of them what a clean report should
mean: every jump and every option with a star names a label of the root.

> `mem_collect`: the findings are those at the nodes within the script.

> `unresolved_eq_nil_iff`: no target is reported if and only if all of them resolve.
-/

namespace VisualNovel.Script

/-- The nodes of a block and of the branches of its conditionals, at every depth. Nodes in
branches of other nodes are never played. -/
inductive Within : Block → Node → Prop
  | here {b : Block} {n : Node} (member : n ∈ b) : Within b n
  | branch {b : Block} {c n : Node} (side : Bool) (member : c ∈ b)
      (kind : c.kind = .conditional) (within : Within (c.branch side) n) : Within b n

/-- What is in a branch of a conditional is within every block the conditional is within. -/
theorem Within.inside {b : Block} {c n : Node} (h : Within b c) (kind : c.kind = .conditional)
    {side : Bool} (member : n ∈ c.branch side) : Within b n := by
  induction h with
  | here inBlock => exact .branch side inBlock kind (.here member)
  | branch outer inBlock conditional _ ih =>
    exact .branch outer inBlock conditional (ih kind member)

/-- A node is within a block if it is the first one, in a branch of that, or behind it. -/
theorem within_cons {n m : Node} {ns : Block} :
    Within (n :: ns) m ↔
      m = n ∨ n.kind = .conditional ∧ (Within n.thenBranch m ∨ Within n.elseBranch m) ∨
        Within ns m := by
  constructor
  · intro h
    cases h with
    | here member =>
      rcases List.mem_cons.mp member with same | later
      · exact .inl same
      · exact .inr (.inr (.here later))
    | branch side member kind within =>
      rcases List.mem_cons.mp member with rfl | later
      · refine .inr (.inl ⟨kind, ?_⟩)
        cases side with
        | true => exact .inl within
        | false => exact .inr within
      · exact .inr (.inr (.branch side later kind within))
  · rintro (rfl | ⟨kind, within | within⟩ | within)
    · exact .here List.mem_cons_self
    · exact .branch true List.mem_cons_self kind within
    · exact .branch false List.mem_cons_self kind within
    · cases within with
      | here member => exact .here (List.mem_cons_of_mem n member)
      | branch side member kind within =>
        exact .branch side (List.mem_cons_of_mem n member) kind within

/-- The findings of a walk are those at the nodes within the block. -/
theorem mem_collect {find : Node → List String} {b : Block} {x : String} :
    x ∈ collect find b ↔ ∃ n, Within b n ∧ x ∈ find n := by
  induction b using Node.tree_induction with
  | nil =>
    rw [collect]
    refine ⟨nofun, ?_⟩
    rintro ⟨n, within, -⟩
    cases within with
    | here member => exact absurd member List.not_mem_nil
    | branch _ member _ _ => exact absurd member List.not_mem_nil
  | cons n ns ihThen ihElse ih =>
    have first : x ∈ collectNode find n ↔
        x ∈ find n ∨ n.kind = .conditional ∧
          (x ∈ collect find n.thenBranch ∨ x ∈ collect find n.elseBranch) := by
      obtain ⟨_, _, kind, _, _, _, _, _, _, t, e⟩ := n
      rw [collectNode, List.mem_append, List.mem_ite_nil_right, List.mem_append]
    rw [collect, List.mem_append, first, ihThen, ihElse, ih]
    simp only [within_cons]
    constructor
    · rintro ((found | ⟨kind, ⟨m, within, found⟩ | ⟨m, within, found⟩⟩) | ⟨m, within, found⟩)
      · exact ⟨n, .inl rfl, found⟩
      · exact ⟨m, .inr (.inl ⟨kind, .inl within⟩), found⟩
      · exact ⟨m, .inr (.inl ⟨kind, .inr within⟩), found⟩
      · exact ⟨m, .inr (.inr within), found⟩
    · rintro ⟨m, rfl | ⟨kind, within | within⟩ | within, found⟩
      · exact .inl (.inl found)
      · exact .inl (.inr ⟨kind, .inl ⟨m, within, found⟩⟩)
      · exact .inl (.inr ⟨kind, .inr ⟨m, within, found⟩⟩)
      · exact .inr ⟨m, within, found⟩

theorem collect_eq_nil_iff {find : Node → List String} {b : Block} :
    collect find b = [] ↔ ∀ n, Within b n → find n = [] := by
  simp only [List.eq_nil_iff_forall_not_mem, mem_collect, not_exists, not_and]
  exact ⟨fun h n within x => h x n within, fun h x n within => h n within x⟩

/-! ## Targets -/

/-- The root has a label of this name. -/
def Names (scenes : Block) (name : String) : Prop :=
  ∃ n ∈ scenes, n.kind = .label ∧ n.label = name

theorem mem_labels {scenes : Block} {name : String} : name ∈ labels scenes ↔ Names scenes name := by
  unfold labels Names
  simp only [List.mem_map, List.mem_filter, beq_iff_eq, and_assoc]

/-- Every jump, and every option with a star before its target, names a label of the root. -/
structure Resolves (scenes : Block) : Prop where
  jumps : ∀ n, Within scenes n → n.kind = .goto → Names scenes n.jumpTarget
  options : ∀ n, Within scenes n → n.kind = .choicePrompt →
    ∀ o ∈ n.options, ∀ name, o.target = "*" ++ name → Names scenes name

/-- The label of an option is what stands behind the star. -/
theorem targetLabel?_eq_some_iff {o : ChoiceOption} {name : String} :
    ChoiceOption.targetLabel? o = some name ↔ o.target = "*" ++ name := by
  unfold ChoiceOption.targetLabel?
  rw [← String.toList_inj, String.toList_append]
  show _ ↔ o.target.toList = '*' :: name.toList
  split
  next rest starred =>
    rw [starred, List.cons.injEq, Option.some.injEq, ← String.toList_inj, String.toList_ofList]
    exact ⟨fun same => ⟨rfl, same⟩, And.right⟩
  next plain =>
    exact ⟨nofun, fun starred => absurd starred (plain _)⟩

/-- The targets of one node that the check reports. -/
theorem unresolvedHere_eq_nil_iff {known : List String} {n : Node} :
    unresolvedHere known n = [] ↔
      (n.kind = .goto → n.jumpTarget ∈ known) ∧
        (n.kind = .choicePrompt →
          ∀ o ∈ n.options, ∀ name, o.target = "*" ++ name → name ∈ known) := by
  unfold unresolvedHere
  split
  next kind =>
    simp only [kind, reduceCtorEq, forall_const, false_implies, and_true]
    split
    next found => exact ⟨fun _ => found, fun _ => rfl⟩
    next missing => exact ⟨nofun, fun found => absurd found missing⟩
  next kind =>
    simp only [kind, reduceCtorEq, forall_const, false_implies, true_and, List.filterMap_eq_nil_iff,
      ← targetLabel?_eq_some_iff]
    refine forall₂_congr fun o _ => ?_
    cases ChoiceOption.targetLabel? o with
    | none => simp
    | some name => simp
  next notJump notChoice =>
    exact ⟨fun _ => ⟨fun kind => absurd kind notJump, fun kind => absurd kind notChoice⟩,
      fun _ => rfl⟩

/-- The check reports no target if and only if all targets resolve. -/
theorem unresolved_eq_nil_iff {scenes : Block} :
    (check scenes).unresolved = [] ↔ Resolves scenes := by
  show collect (unresolvedHere (labels scenes)) scenes = [] ↔ _
  simp only [collect_eq_nil_iff, unresolvedHere_eq_nil_iff, mem_labels]
  exact ⟨fun h => ⟨fun n within => (h n within).1, fun n within => (h n within).2⟩,
    fun h n within => ⟨h.jumps n within, h.options n within⟩⟩

end VisualNovel.Script
