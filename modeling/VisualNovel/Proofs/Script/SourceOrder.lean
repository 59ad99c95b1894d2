import VisualNovel.Proofs.Script.Kept
import VisualNovel.Script.Edit

/-!
# A script in source order

Every line of a script that says something becomes one item of the tree: a node, or an
option of a choice. Read in preorder, the tree has the items of the lines in their
order, none lost and none twice. What one line does to a pass is enough to see it:

> `items_feed`: a line adds its own item behind those of the pass, and whatever it
> closes stays in place.

> `numbered_ofLines`: every line keeps every block numbered by position.

> `ofLines_onePass`: a script is the tree of one pass over its lines, with their items
> in preorder and the places of nodes for numbers.
-/

namespace VisualNovel

open Script

/-! ## Items -/

/-- An item of a script: a node without all that is inside it, or an option. -/
inductive Item
  | node (n : Node)
  | option (o : ChoiceOption)

namespace Node

mutual

/-- The items of a node in preorder: its own without number, its options, and those
of its branches. -/
def items : Node → List Item
  | ⟨id, _, kind, speaker, text, label, token, params, options, t, e⟩ =>
    .node ⟨id, 0, kind, speaker, text, label, token, params, [], [], []⟩ ::
      (options.map .option ++ (blockItems t ++ blockItems e))

/-- The items of a block in preorder. -/
def blockItems : Block → List Item
  | [] => []
  | n :: ns => items n ++ blockItems ns

end

theorem blockItems_append (b c : Block) :
    blockItems (b ++ c) = blockItems b ++ blockItems c := by
  induction b with
  | nil => rfl
  | cons n ns ih =>
    rw [List.cons_append, blockItems, blockItems, ih, List.append_assoc]

/-- The number of a node is no part of its items. -/
theorem items_withSeq (n : Node) (seq : Nat) : (n.withSeq seq).items = n.items := by
  obtain ⟨_, _, _, _, _, _, _, _, _, _, _⟩ := n
  unfold withSeq items
  rfl

end Node

namespace Line

/-- The items of a line: an option where a choice is open, and a node elsewhere. -/
def items (line : Line) (inChoice : Bool) : List Item :=
  if inChoice then
    if isTerminator .endChoice line then [] else (splitArm line.raw).toList.map .option
  else match line.content with
    | .choiceOpen => [.node (.choice [])]
    | .ifOpen token params => [.node ((Node.conditional params [] []).withToken token)]
    | content => content.leaf?.toList.map .node

/-- Whether a choice is open after a line. -/
def leavesChoice (line : Line) (inChoice : Bool) : Bool :=
  if inChoice then !isTerminator .endChoice line else line.content == .choiceOpen

/-- The items of lines, one after the other. -/
def sourceItems : Bool → List Line → List Item
  | _, [] => []
  | inChoice, line :: rest =>
    line.items inChoice ++ sourceItems (line.leavesChoice inChoice) rest

theorem items_of_skip {line : Line} (h : line.content = .blank ∨ line.content = .comment) :
    line.items false = [] := by
  unfold items
  rcases h with h | h
  · rw [h]; rfl
  · rw [h]; rfl

theorem items_of_terminator {line : Line} {t : Terminator} (h : line.content = .terminator t) :
    line.items false = [] := by
  unfold items
  rw [h]
  rfl

/-- A line that is a node by itself has the items of the node. -/
theorem items_of_leaf {line : Line} {n : Node} (h : line.content.leaf? = some n) :
    line.items false = n.items := by
  unfold items
  rcases LineContent.leaf_cases h with
    ⟨name, hc, rfl⟩ | ⟨token, params, hc, rfl⟩ | ⟨speaker, text, hc, rfl⟩
  · rw [hc]; rfl
  · rw [hc]; rfl
  · rw [hc]; rfl

end Line

namespace Script

namespace OpenIf

/-- The items of a conditional so far. -/
def items (b : OpenIf) : List Item :=
  .node ((Node.conditional b.params [] []).withToken b.token) ::
    (Node.blockItems b.thenBranch ++ Node.blockItems (b.elseBranch.getD []))

/-- A conditional that is closed has the items it had while it was open. -/
theorem items_node (b : OpenIf) : b.node.items = b.items := by
  obtain ⟨token, params, thenBranch, elseBranch⟩ := b
  unfold node Node.conditional Node.withToken Node.items
  rfl

theorem items_put (b : OpenIf) (nodes : Block) :
    (b.put nodes).items = b.items ++ Node.blockItems nodes := by
  obtain ⟨token, params, thenBranch, elseBranch⟩ := b
  cases elseBranch with
  | none => simp [put, items, Node.blockItems_append, Node.blockItems]
  | some e => simp [put, items, Node.blockItems_append]

end OpenIf

namespace Pass

/-- The items of what is read, the open choice apart. -/
def placed (m : Pass) : List Item :=
  Node.blockItems m.done ++ m.opened.reverse.flatMap OpenIf.items

/-- The items of what is read. -/
def items (m : Pass) : List Item :=
  m.placed ++ match m.choice with
    | none => []
    | some options => .node (.choice []) :: options.map .option

variable {m : Pass} {b : OpenIf} {bs : List OpenIf} {line : Line}

/-- Nodes that are put in add their items behind those that are placed. -/
theorem placed_put (m : Pass) (nodes : Block) :
    (m.put nodes).placed = m.placed ++ Node.blockItems nodes := by
  obtain ⟨done, opened, choice⟩ := m
  cases opened with
  | nil => simp [put, placed, Node.blockItems_append]
  | cons b bs => simp [put, placed, OpenIf.items_put]

theorem placed_append (m : Pass) (n : Node) : (m.append n).placed = m.placed ++ n.items := by
  rw [append, placed_put, Node.blockItems, Node.blockItems, List.append_nil,
    Node.items_withSeq]

/-- Closing a conditional leaves its items in place. -/
theorem placed_close (m : Pass) : m.close.placed = m.placed := by
  unfold close
  split
  next => rfl
  next b bs h =>
    rw [placed_append, OpenIf.items_node]
    unfold placed
    rw [h]
    simp

/-- Closing conditionals moves no item. -/
theorem placed_closeMany (k : Nat) (m : Pass) : (closeMany k m).placed = m.placed := by
  induction k generalizing m with
  | zero => rfl
  | succ k ih => exact (ih m.close).trans m.placed_close

/-- Where no conditional is in its second branch, the innermost one has none yet. -/
theorem elseBranch_of_elseDepth (h : m.opened = b :: bs) (hd : m.elseDepth = 0) :
    b.elseBranch = none := by
  cases he : b.elseBranch with
  | none => rfl
  | some e =>
    have := elseDepth_close h (by rw [he]; rfl)
    omega

/-- Once `@else` has closed what it closes, no second branch is innermost. -/
theorem elseDepth_closeMany (k : Nat) (m : Pass) (hd : m.elseDepth = k) :
    (closeMany k m).elseDepth = 0 := by
  induction k generalizing m with
  | zero => exact hd
  | succ k ih =>
    refine ih m.close ?_
    cases ho : m.opened with
    | nil => simp [elseDepth, ho] at hd
    | cons b bs =>
      have he : b.elseBranch.isSome := by
        cases he : b.elseBranch with
        | some e => rfl
        | none => simp [elseDepth, ho, he] at hd
      have := elseDepth_close ho he
      omega

/-- A second branch that is opened is a new one. -/
theorem placed_switch (hd : m.elseDepth = 0) : m.switch.placed = m.placed := by
  unfold switch
  split
  next => rfl
  next b bs h =>
    -- Otherwise the nodes of a second branch would be lost here.
    have he := elseBranch_of_elseDepth h hd
    unfold placed
    rw [h]
    simp [OpenIf.items, he]

/-- A terminator leaves what it closes in place. -/
theorem placed_terminate (m : Pass) (t : Terminator) : (m.terminate t).placed = m.placed := by
  cases t with
  | endIf => exact m.placed_close
  | otherwise =>
    exact (placed_switch (elseDepth_closeMany _ m rfl)).trans (placed_closeMany _ m)
  | endChoice => exact placed_closeMany _ m

/-- The end of a choice adds the choice and then its options. -/
theorem placed_endChoice (m : Pass) (options : List ChoiceOption) :
    (m.endChoice options).placed =
      m.placed ++ .node (.choice []) :: options.map .option := by
  rw [endChoice, placed_append]
  simp [placed, Node.items, Node.choice, Node.ofKind, Node.blockItems]

theorem closeMany_choice (k : Nat) (m : Pass) : (closeMany k m).choice = m.choice := by
  induction k generalizing m with
  | zero => rfl
  | succ k ih => exact (ih m.close).trans m.close_choice

theorem switch_choice (m : Pass) : m.switch.choice = m.choice := by
  unfold switch
  split
  next => rfl
  next => rfl

theorem terminate_choice (m : Pass) (t : Terminator) : (m.terminate t).choice = m.choice := by
  cases t with
  | endIf => exact m.close_choice
  | otherwise => exact (switch_choice _).trans (closeMany_choice _ m)
  | endChoice => exact closeMany_choice _ m

/-- Outside a choice, a pass holds what is placed. -/
theorem items_of_outside (h : m.choice = none) : m.items = m.placed := by
  unfold items
  rw [h, List.append_nil]

/-- Whether a choice is open is a matter of the line. -/
theorem choice_feed (m : Pass) (line : Line) :
    (m.feed line).choice.isSome = line.leavesChoice m.choice.isSome := by
  generalize hf : m.feed line = m'
  have fed : Fed m line m' := hf ▸ m.feed_cases line
  unfold Line.leavesChoice
  cases fed with
  | skip hm hc =>
    rcases hc with hc | hc
    · simp [hm, hc]
    · simp [hm, hc]
  | @leaf n hm hc =>
    have : line.content ≠ .choiceOpen := fun h => absurd hc (by simp [h, LineContent.leaf?])
    simp [hm, this]
  | choiceOpen hm hc => simp [hc, hm]
  | ifOpen hm hc => simp [openIf, hm, hc]
  | terminator hm hc => simp [terminate_choice, hm, hc]
  | arm hm hc => simp [hm, isTerminator, hc]
  | endArms hm hc => simp [endChoice, hm, isTerminator, hc]

/-- Outside choices, what is placed is all that comes in. -/
theorem items_of_placed {m' : Pass} {added : List Item} (hm : m.choice = none)
    (hm' : m'.choice = none) (h : m'.placed = m.placed ++ added) : m'.items = m.items ++ added := by
  rw [items_of_outside hm, items_of_outside hm', h]

/-- A line adds its own item behind those of the pass. -/
theorem items_feed (m : Pass) (line : Line) :
    (m.feed line).items = m.items ++ line.items m.choice.isSome := by
  have outside (hm : m.choice = none) : line.items m.choice.isSome = line.items false := by
    rw [hm]
    rfl
  generalize hf : m.feed line = m'
  have fed : Fed m line m' := hf ▸ m.feed_cases line
  cases fed with
  | skip hm hc => rw [outside hm, Line.items_of_skip hc, List.append_nil]
  | @leaf n hm hc =>
    rw [outside hm, Line.items_of_leaf hc]
    exact items_of_placed hm ((m.append_choice n).trans hm) (m.placed_append n)
  | choiceOpen hm hc =>
    rw [outside hm]
    simp [items, placed, Line.items, hm, hc]
  | ifOpen hm hc =>
    rw [outside hm]
    refine items_of_placed hm hm ?_
    simp [placed, openIf, OpenIf.items, Node.blockItems, Line.items, hc]
  | terminator hm hc =>
    rw [outside hm, Line.items_of_terminator hc]
    refine items_of_placed hm ((m.terminate_choice _).trans hm) ?_
    rw [placed_terminate, List.append_nil]
  | arm hm hc => simp [items, placed, Line.items, hm, isTerminator, hc]
  | @endArms options hm hc =>
    rw [items_of_outside (append_choice _ _), placed_endChoice]
    simp [items, Line.items, hm, isTerminator, hc]

/-- Lines add their items one after the other. -/
theorem items_foldl_feed (m : Pass) (lines : List Line) :
    (lines.foldl feed m).items =
      m.items ++ Line.sourceItems m.choice.isSome lines := by
  induction lines generalizing m with
  | nil => exact (List.append_nil _).symm
  | cons line rest ih =>
    rw [List.foldl_cons, ih, items_feed, choice_feed, List.append_assoc]
    rfl

theorem length_opened_closeMany (k : Nat) (m : Pass) :
    (closeMany k m).opened.length = m.opened.length - k := by
  induction k generalizing m with
  | zero => rfl
  | succ k ih =>
    rw [closeMany, ih, length_opened_close]
    omega

/-- Closing all conditionals leaves the root alone. -/
theorem blockItems_closeAll (m : Pass) : Node.blockItems m.closeAll.done = m.placed := by
  have bottom : m.closeAll.opened = [] := by
    have := length_opened_closeMany m.opened.length m
    exact List.eq_nil_of_length_eq_zero (this.trans (Nat.sub_self _))
  rw [← placed_closeMany m.opened.length m]
  show _ = m.closeAll.placed
  unfold placed
  rw [bottom]
  exact (List.append_nil _).symm

/-- What is open at the end of the lines stays in place. -/
theorem blockItems_finish (m : Pass) : Node.blockItems m.finish = m.items := by
  unfold finish
  split
  next options hm =>
    rw [blockItems_closeAll, placed_endChoice]
    simp [items, hm]
  next hm => rw [blockItems_closeAll, items_of_outside hm]

end Pass

/-! ## Numbers -/

/-- The numbers of a block go on in the block after it. -/
theorem renumberAll_append (next : Nat) (b c : Block) :
    renumberAll next (b ++ c) = renumberAll next b ++ renumberAll (next + b.length) c := by
  induction b generalizing next with
  | nil => rfl
  | cons n ns ih =>
    rw [List.cons_append, renumberAll, renumberAll, ih, List.cons_append, List.length_cons,
      Nat.add_assoc, Nat.add_comm 1]

/-- A block is numbered by position, at every depth. -/
def Numbered (b : Block) : Prop := renumber b = b

/-- A node whose branches are numbered continues a numbered block. -/
theorem Numbered.concat {b : Block} (h : Numbered b) {n : Node} (ht : Numbered n.thenBranch)
    (he : Numbered n.elseBranch) : Numbered (b ++ [n.withSeq (b.length + 1)]) := by
  obtain ⟨_, _, _, _, _, _, _, _, _, t, e⟩ := n
  unfold Numbered renumber at h ht he ⊢
  rw [renumberAll_append, h, Nat.add_comm 1]
  simp only [renumberAll, renumberNode, Node.withSeq]
  rw [ht, he]

/-- The tree of a script is numbered by position. -/
theorem numbered_ofLines (texts : List (List Char)) : Numbered (ofLines texts) := by
  have inv : Invariant Numbered (fun _ _ => True) (fun _ => True) :=
    ⟨rfl, fun _ hb => hb.concat rfl rfl, fun _ ht he hb => hb.concat ht he⟩
  refine inv.ofLines fun line _ => ⟨fun hn hb => ?_, fun _ => trivial, fun _ => trivial⟩
  rcases LineContent.leaf_cases hn with
    ⟨name, -, rfl⟩ | ⟨token, params, -, rfl⟩ | ⟨speaker, text, -, rfl⟩
  · exact hb.concat rfl rfl
  · exact hb.concat rfl rfl
  · exact hb.concat rfl rfl

/-- The items of a script are those of its lines in their order. -/
theorem blockItems_ofLines (texts : List (List Char)) :
    Node.blockItems (ofLines texts) = Line.sourceItems false (Line.readAll texts) := by
  unfold ofLines
  rw [Pass.root_eq_outcome, Pass.outcome, Pass.blockItems_finish, Pass.items_foldl_feed]
  rfl

/-- However terminators are missing, doubled or misplaced, the tree of a script is the
one that one pass over its lines builds with a stack of open conditionals. Its items
in preorder are those of the lines, in their order, and every node has its place in its
block for a number. -/
theorem ofLines_onePass (texts : List (List Char)) :
    ofLines texts = ((Line.readAll texts).foldl Pass.feed Pass.start).finish ∧
      Node.blockItems (ofLines texts) = Line.sourceItems false (Line.readAll texts) ∧
      renumber (ofLines texts) = ofLines texts :=
  ⟨Pass.root_eq_outcome _, blockItems_ofLines texts, numbered_ofLines texts⟩

end Script

end VisualNovel
