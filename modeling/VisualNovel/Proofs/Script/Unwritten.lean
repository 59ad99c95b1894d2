import Mathlib.Data.List.Flatten
import VisualNovel.Proofs.Script.RoundTrip

/-!
# Nodes without a line

A node whose word is not that of a directive has no line, unless it is dialogue, a label or a
choice, which have one whatever their word. Taking such nodes out of every block should make
no difference to the text. It does not as far as single lines go, but a conditional is more
than its line: without it, its branches and its end are written all the same, and that end
closes the block around it. And the word between the branches is written for a second branch
that is not empty, also if none of its nodes is.

> `Script.left_pruned`: taking the nodes out only takes lines out of the text.

> `Script.write_pruned_iff`: it takes none out exactly if every conditional that is written has
> a line, and a node with a line in its second branch if it has one.
-/

namespace VisualNovel

open Node

namespace Node

/-- Whether a node has a line of its own. -/
def hasLine (n : Node) : Bool :=
  match n.kind with
  | .text | .label | .choicePrompt | .choiceEnd => true
  | _ => n.isDirective

mutual

/-- The node without the nodes below it that have no line. -/
def pruned : Node → Node
  | ⟨id, seq, kind, speaker, text, label, token, params, options, t, e⟩ =>
    ⟨id, seq, kind, speaker, text, label, token, params, options, prunedBlock t, prunedBlock e⟩

/-- The block without the nodes that have no line, at every depth. -/
def prunedBlock : Block → Block
  | [] => []
  | n :: ns => if n.hasLine then n.pruned :: prunedBlock ns else prunedBlock ns

end

mutual

/-- A node and those below it that the text goes through: only a conditional shows what is in
its branches. -/
def reached (n : Node) : List Node :=
  match n with
  | ⟨_, _, kind, _, _, _, _, _, _, t, e⟩ =>
    n :: if kind = .conditional then reachedBlock t ++ reachedBlock e else []

/-- The nodes of a block that the text goes through, in preorder. -/
def reachedBlock : Block → List Node
  | [] => []
  | n :: ns => reached n ++ reachedBlock ns

end

/-- All lines around the branches of a conditional belong to nodes that have one: its own line,
and the word between the branches if there is a second. -/
def Framed (n : Node) : Prop :=
  n.kind = .conditional →
    n.isDirective = true ∧ (n.elseBranch = [] ∨ ∃ m ∈ n.elseBranch, m.hasLine = true)

variable {n : Node}

theorem pruned_eq (n : Node) :
    n.pruned = { n with
      thenBranch := prunedBlock n.thenBranch
      elseBranch := prunedBlock n.elseBranch } := by
  obtain ⟨_, _, _, _, _, _, _, _, _, _, _⟩ := n
  rw [pruned]

/-- The text goes through the branches of a conditional. -/
theorem reached_conditional (h : n.kind = .conditional) :
    n.reached = n :: (reachedBlock n.thenBranch ++ reachedBlock n.elseBranch) := by
  obtain ⟨_, _, _, _, _, _, _, _, _, _, _⟩ := n
  rw [reached, if_pos h]

/-- Of any other node it goes through the node alone. -/
theorem reached_leaf (h : n.kind ≠ .conditional) : n.reached = [n] := by
  obtain ⟨_, _, _, _, _, _, _, _, _, _, _⟩ := n
  rw [reached, if_neg h]

/-- A line does not depend on branches. -/
theorem line_pruned (n : Node) : n.pruned.line = n.line := by
  rw [pruned_eq]
  rfl

/-- A node without a line is written as an empty one. -/
theorem line_eq_empty (h : n.hasLine = false) : n.line = "" := by
  unfold hasLine at h
  unfold line
  cases kind : n.kind with
  | text | label | choicePrompt | choiceEnd =>
    rw [kind] at h
    contradiction
  | _ =>
    rw [kind] at h
    exact if_neg (Bool.eq_false_iff.mp h)

/-- A conditional has a line exactly if its word is that of a directive. -/
theorem hasLine_conditional (h : n.kind = .conditional) : n.hasLine = n.isDirective := by
  unfold hasLine
  rw [h]

theorem prunedBlock_cons_pos (h : n.hasLine = true) (ns : Block) :
    prunedBlock (n :: ns) = n.pruned :: prunedBlock ns := by
  rw [prunedBlock, if_pos h]

theorem prunedBlock_cons_neg (h : n.hasLine = false) (ns : Block) :
    prunedBlock (n :: ns) = prunedBlock ns := by
  rw [prunedBlock, h]
  rfl

/-- A block is left with nothing if none of its nodes has a line. -/
theorem prunedBlock_eq_nil_iff (b : Block) :
    prunedBlock b = [] ↔ ∀ m ∈ b, m.hasLine = false := by
  induction b with
  | nil => simp [prunedBlock]
  | cons n ns ih =>
    cases h : n.hasLine with
    | true => simp [prunedBlock_cons_pos h, h]
    | false => simp [prunedBlock_cons_neg h, h, ih]

end Node

/-! ## Lists with some items taken out -/

section Sublist

variable {α β : Type} {a b c d : List α}

/-- Two lists with items taken out are the same, put together, only if each of them is. -/
theorem append_eq_append_of_sublist (h : a.Sublist b) (h' : c.Sublist d) :
    a ++ c = b ++ d ↔ a = b ∧ c = d := by
  constructor
  · intro same
    have total := congrArg List.length same
    have first := h.length_le
    have second := h'.length_le
    rw [List.length_append, List.length_append] at total
    obtain rfl := h.eq_of_length (by omega)
    exact ⟨rfl, List.append_cancel_left same⟩
  · rintro ⟨rfl, rfl⟩
    rfl

/-- Items that are spelled out cannot be taken out of a list without a trace. -/
theorem eq_of_flatMap_eq_of_sublist {f : α → List β} (hf : ∀ x, f x ≠ []) (h : a.Sublist b)
    (same : a.flatMap f = b.flatMap f) : a = b := by
  induction h with
  | slnil => rfl
  | cons x h ih =>
    have shorter := (h.flatMap f).length_le
    have spelled := List.length_pos_iff.mpr (hf x)
    rw [same, List.flatMap_cons, List.length_append] at shorter
    omega
  | cons_cons x h ih => rw [ih (List.append_cancel_left same)]

end Sublist

namespace Script

/-! ## The lines that are shown -/

/-- The lines that are not empty. -/
def shown (ls : List String) : List String := ls.filter (· ≠ "")

theorem shown_append (ls ms : List String) : shown (ls ++ ms) = shown ls ++ shown ms :=
  List.filter_append ..

theorem shown_terminator (t : Terminator) : shown [t.token] = [t.token] := by
  cases t <;> decide

/-- A text says which lines it is made of, if they are among lines that are known. -/
theorem write_eq_iff {b c : Block}
    (h : (shown (blockLines b)).Sublist (shown (blockLines c))) :
    write b = write c ↔ shown (blockLines b) = shown (blockLines c) := by
  have text (b : Block) :
      (write b).toList = (shown (blockLines b)).flatMap (·.toList ++ ['\n']) := by
    simp [write, shown, List.flatMap_map]
  constructor
  · intro same
    have spelled (l : String) : l.toList ++ ['\n'] ≠ [] := by simp
    refine eq_of_flatMap_eq_of_sublist spelled h ?_
    rw [← text, ← text, same]
  · intro same
    exact congrArg (fun ls : List String => String.join (ls.map (· ++ "\n"))) same

/-- What is left of lines, as far as they are shown, and when that is all of them. -/
structure Left (ls ms : List String) (all : Prop) : Prop where
  sublist : (shown ls).Sublist (shown ms)
  same : shown ls = shown ms ↔ all

namespace Left

variable {ls ms ls' ms' : List String} {all all' : Prop}

theorem refl (ls : List String) : Left ls ls True := ⟨List.Sublist.refl _, by simp⟩

theorem congr (h : Left ls ms all) (iff : all ↔ all') : Left ls ms all' :=
  ⟨h.sublist, h.same.trans iff⟩

theorem append (h : Left ls ms all) (h' : Left ls' ms' all') :
    Left (ls ++ ls') (ms ++ ms') (all ∧ all') where
  sublist := by
    rw [shown_append, shown_append]
    exact h.sublist.append h'.sublist
  same := by
    rw [shown_append, shown_append, append_eq_append_of_sublist h.sublist h'.sublist, h.same,
      h'.same]

/-- Nothing is left of lines, some of which are shown. -/
theorem nothing (h : shown ms ≠ []) (never : ¬all) : Left [] ms all :=
  ⟨List.nil_sublist _, fun same => absurd same.symm h, fun yes => absurd yes never⟩

end Left

/-! ## Taking nodes out -/

variable {n : Node}

/-- The lines of a second branch, with the word before it. -/
def elseLines (e : Block) : List String :=
  if e.isEmpty then [] else [Terminator.otherwise.token] ++ blockLines e

theorem elseLines_of_ne_nil {e : Block} (h : e ≠ []) :
    elseLines e = [Terminator.otherwise.token] ++ blockLines e :=
  if_neg (by simpa using h)

/-- The lines of a conditional are its own, those of its branches, and the words around them. -/
theorem nodeLines_framed (h : n.kind = .conditional) :
    nodeLines n = [n.line] ++ (blockLines n.thenBranch ++
      (elseLines n.elseBranch ++ [Terminator.endIf.token])) := by
  rw [nodeLines_conditional h, elseLines]
  simp

/-- A node that is no conditional has the same lines when nodes below it are taken out. -/
theorem nodeLines_pruned (h : n.kind ≠ .conditional) : nodeLines n.pruned = nodeLines n := by
  have kind : n.pruned.kind = n.kind := by rw [pruned_eq]
  have options : n.pruned.options = n.options := by rw [pruned_eq]
  by_cases hc : n.kind = .choicePrompt
  · rw [nodeLines_choice hc, nodeLines_choice (kind.trans hc), line_pruned, options]
  · rw [nodeLines_leaf hc h, nodeLines_leaf (by rwa [kind]) (by rwa [kind]), line_pruned]

/-- A node without a line that is no conditional has nothing but an empty line. -/
theorem nodeLines_of_not_hasLine (line : n.hasLine = false) (h : n.kind ≠ .conditional) :
    nodeLines n = [""] := by
  have silent : n.kind ≠ .choicePrompt := by
    intro choice
    rw [hasLine, choice] at line
    contradiction
  rw [nodeLines_leaf silent h, line_eq_empty line]

/-- Of a second branch the word before it is taken out if none of its nodes is left. -/
theorem left_elseLines {e : Block} {all : Prop}
    (h : Left (blockLines (prunedBlock e)) (blockLines e) all) :
    Left (elseLines (prunedBlock e)) (elseLines e)
      ((e = [] ∨ ∃ m ∈ e, m.hasLine = true) ∧ all) := by
  by_cases empty : e = []
  · subst empty
    have yes : all := h.same.mp rfl
    exact (Left.refl []).congr (by simp [yes])
  by_cases gone : prunedBlock e = []
  · have none : ¬∃ m ∈ e, m.hasLine = true := by
      simpa using (prunedBlock_eq_nil_iff e).mp gone
    have word : shown (elseLines e) ≠ [] := by
      rw [elseLines_of_ne_nil empty, shown_append, shown_terminator]
      exact List.cons_ne_nil _ _
    rw [gone]
    exact .nothing word fun all => all.1.elim empty none
  · have some : ∃ m ∈ e, m.hasLine = true := by
      by_contra none
      exact gone ((prunedBlock_eq_nil_iff e).mpr (by simpa using none))
    rw [elseLines_of_ne_nil empty, elseLines_of_ne_nil gone]
    exact ((Left.refl _).append h).congr (by simp [some])

/-- A conditional that has a line keeps it and its end, and its branches lose what they lose. -/
theorem left_conditional (h : n.kind = .conditional) (line : n.isDirective = true)
    (ht : Left (blockLines (prunedBlock n.thenBranch)) (blockLines n.thenBranch)
      (∀ m ∈ reachedBlock n.thenBranch, m.Framed))
    (he : Left (blockLines (prunedBlock n.elseBranch)) (blockLines n.elseBranch)
      (∀ m ∈ reachedBlock n.elseBranch, m.Framed)) :
    Left (nodeLines n.pruned) (nodeLines n) (∀ m ∈ n.reached, m.Framed) := by
  have branches : nodeLines n.pruned = [n.line] ++ (blockLines (prunedBlock n.thenBranch) ++
      (elseLines (prunedBlock n.elseBranch) ++ [Terminator.endIf.token])) := by
    rw [nodeLines_framed (by rwa [pruned_eq]), line_pruned, pruned_eq]
  have framed : n.Framed ↔ n.elseBranch = [] ∨ ∃ m ∈ n.elseBranch, m.hasLine = true := by
    simp [Framed, h, line]
  rw [branches, nodeLines_framed h, reached_conditional h, List.forall_mem_cons,
    List.forall_mem_append, framed]
  refine ((Left.refl _).append (ht.append ((left_elseLines he).append (.refl _)))).congr ?_
  rw [true_and, and_true, and_left_comm]

/-- What is left of the lines of a node: all of them if it has a line or no lines at all, but
not those of a conditional without a line, which has an end. -/
theorem left_node (n : Node)
    (ht : Left (blockLines (prunedBlock n.thenBranch)) (blockLines n.thenBranch)
      (∀ m ∈ reachedBlock n.thenBranch, m.Framed))
    (he : Left (blockLines (prunedBlock n.elseBranch)) (blockLines n.elseBranch)
      (∀ m ∈ reachedBlock n.elseBranch, m.Framed)) :
    Left (if n.hasLine then nodeLines n.pruned else []) (nodeLines n)
      (∀ m ∈ n.reached, m.Framed) := by
  by_cases h : n.kind = .conditional
  · rw [hasLine_conditional h]
    cases line : n.isDirective with
    | true => exact left_conditional h line ht he
    | false =>
      -- Taken out with all below it, the conditional leaves no line, but its end is written.
      have ends : shown (nodeLines n) ≠ [] := by
        rw [nodeLines_framed h]
        simp only [shown_append, shown_terminator]
        simp
      refine .nothing ends fun framed => ?_
      rw [reached_conditional h] at framed
      have opens := (framed n List.mem_cons_self h).1
      rw [line] at opens
      contradiction
  · have other : ∀ m ∈ n.reached, m.Framed := by
      rw [reached_leaf h]
      simp [Framed, h]
    cases line : n.hasLine with
    | true =>
      rw [if_pos rfl, nodeLines_pruned h]
      exact (Left.refl _).congr (iff_of_true trivial other)
    | false =>
      rw [nodeLines_of_not_hasLine line h]
      exact ⟨List.Sublist.refl _, fun _ => other, fun _ => rfl⟩

/-- Taking out nodes without a line only takes lines out of the text, and none exactly if all
conditionals are framed. -/
theorem left_pruned (b : Block) :
    Left (blockLines (prunedBlock b)) (blockLines b) (∀ m ∈ reachedBlock b, m.Framed) := by
  induction b using tree_induction with
  | nil => exact (Left.refl []).congr (by simp [reachedBlock])
  | cons n ns ht he ih =>
    have lines : blockLines (prunedBlock (n :: ns)) =
        (if n.hasLine then nodeLines n.pruned else []) ++ blockLines (prunedBlock ns) := by
      cases line : n.hasLine with
      | true => rw [prunedBlock_cons_pos line, blockLines, if_pos rfl]
      | false => rw [prunedBlock_cons_neg line]; rfl
    rw [lines, blockLines, reachedBlock, List.forall_mem_append]
    exact (left_node n ht he).append ih

/-- Taking the nodes without a line out of every block leaves the text as it is, exactly if
every conditional the text goes through has a line, and has a node with a line in its second
branch if that is not empty. -/
theorem write_pruned_iff (b : Block) :
    write (prunedBlock b) = write b ↔ ∀ n ∈ reachedBlock b, n.Framed := by
  rw [write_eq_iff (left_pruned b).sublist, (left_pruned b).same]

/-- A condition around a conditional whose word is gone, and a line after that. -/
def unworded : Block :=
  [conditional ["$a", "==", "1"]
    [(conditional [] [] []).withToken "note", dialogue "" "inside"] []]

/-- The end of the inner conditional is written without its beginning, and closes the
condition around it before the line that was inside. -/
theorem write_unworded :
    write unworded = "@if $a == 1\n@endif\ninside\n@endif\n" ∧
      write (prunedBlock unworded) = "@if $a == 1\ninside\n@endif\n" ∧
        write (prunedBlock unworded) ≠ write unworded := by
  decide +kernel

end Script

end VisualNovel
