import VisualNovel.Proofs.Script.OnePass

/-!
# What every line keeps

A property of blocks that no line breaks holds of the whole tree: it holds of the empty
block, and of a block with one more node if it held before, be it the node of a line, a
choice with the options of lines or a conditional with two such blocks.

> `Pass.Kept.feed`: a line keeps such a property in every block of a pass.

> `Invariant.ofLines`: so the tree of a script has it.
-/

namespace VisualNovel

namespace Script

/-- A block with a node added, numbered by its place. -/
def concat (b : Block) (n : Node) : Block := b ++ [n.withSeq (b.length + 1)]

/-- A property of blocks that choices and conditionals keep. Their options come from lines,
as do the words of conditionals. -/
structure Invariant (holds : Block → Prop) (word : String → List String → Prop)
    (option : ChoiceOption → Prop) : Prop where
  nil : holds []
  choice : ∀ {b options}, (∀ o ∈ options, option o) → holds b → holds (concat b (.choice options))
  conditional : ∀ {b token params t e}, word token params → holds t → holds e → holds b →
    holds (concat b ((Node.conditional params t e).withToken token))

/-- A line that keeps the property, whatever it says. -/
structure Keeps (holds : Block → Prop) (word : String → List String → Prop)
    (option : ChoiceOption → Prop) (line : Line) : Prop where
  leaf : ∀ {b n}, line.content.leaf? = some n → holds b → holds (concat b n)
  ifOpen : ∀ {token params}, line.content = .ifOpen token params → word token params
  arm : ∀ {o}, Line.splitArm line.raw = some o → option o

/-- Every block of a pass has the property. -/
structure Pass.Kept (holds : Block → Prop) (word : String → List String → Prop)
    (option : ChoiceOption → Prop) (m : Pass) : Prop where
  done : holds m.done
  opened : ∀ b ∈ m.opened,
    holds b.thenBranch ∧ holds (b.elseBranch.getD []) ∧ word b.token b.params
  choice : ∀ options, m.choice = some options → ∀ o ∈ options, option o

variable {holds : Block → Prop} {word : String → List String → Prop}
  {option : ChoiceOption → Prop}

namespace Pass.Kept

variable {m : Pass}

/-- A node is added to one block, and the others stay. -/
theorem append (h : m.Kept holds word option) {n : Node}
    (hn : ∀ {b}, holds b → holds (concat b n)) : (m.append n).Kept holds word option := by
  obtain ⟨done, opened, choice⟩ := m
  cases opened with
  | nil => exact ⟨hn h.done, h.opened, h.choice⟩
  | cons b bs =>
    obtain ⟨⟨ht, he, hw⟩, hbs⟩ := List.forall_mem_cons.mp h.opened
    obtain ⟨token, params, thenBranch, elseBranch⟩ := b
    refine ⟨h.done, List.forall_mem_cons.mpr ⟨?_, hbs⟩, h.choice⟩
    cases elseBranch with
    | none => exact ⟨hn ht, he, hw⟩
    | some e => exact ⟨ht, hn he, hw⟩

/-- Closing a block makes a node of two blocks with the property. -/
theorem close (inv : Invariant holds word option) (h : m.Kept holds word option) :
    m.close.Kept holds word option := by
  unfold Pass.close
  split
  next => exact h
  next b bs ho =>
    obtain ⟨⟨ht, he, hw⟩, hbs⟩ := List.forall_mem_cons.mp (ho ▸ h.opened)
    have rest : ({ m with opened := bs } : Pass).Kept holds word option := ⟨h.done, hbs, h.choice⟩
    exact rest.append (inv.conditional hw ht he)

/-- So does closing several, one after the other. -/
theorem closeMany (inv : Invariant holds word option) (k : Nat)
    (h : m.Kept holds word option) : (Pass.closeMany k m).Kept holds word option := by
  induction k generalizing m with
  | zero => exact h
  | succ k ih => exact ih (h.close inv)

/-- Opening a second branch keeps the property, since the branch is empty. -/
theorem switch (inv : Invariant holds word option) (h : m.Kept holds word option) :
    m.switch.Kept holds word option := by
  unfold Pass.switch
  split
  next => exact h
  next b bs ho =>
    obtain ⟨⟨ht, -, hw⟩, hbs⟩ := List.forall_mem_cons.mp (ho ▸ h.opened)
    exact ⟨h.done, List.forall_mem_cons.mpr ⟨⟨ht, inv.nil, hw⟩, hbs⟩, h.choice⟩

/-- A terminator keeps the property, since all it does is to close blocks and open a branch. -/
theorem terminate (inv : Invariant holds word option) (h : m.Kept holds word option)
    (t : Terminator) : (m.terminate t).Kept holds word option := by
  cases t with
  | endIf => exact h.close inv
  | otherwise => exact (h.closeMany inv _).switch inv
  | endChoice => exact h.closeMany inv _

/-- The end of a choice makes a node of the options of its lines. -/
theorem endChoice (inv : Invariant holds word option) (h : m.Kept holds word option)
    {options : List ChoiceOption} (ho : ∀ o ∈ options, option o) :
    (m.endChoice options).Kept holds word option := by
  have outside : ({ m with choice := none } : Pass).Kept holds word option :=
    ⟨h.done, h.opened, fun _ h => absurd h (by simp)⟩
  exact outside.append (inv.choice ho)

/-- A line that keeps the property keeps it in every block. -/
theorem feed (inv : Invariant holds word option) (h : m.Kept holds word option) {line : Line}
    (hl : Keeps holds word option line) : (m.feed line).Kept holds word option := by
  generalize hf : m.feed line = m'
  have fed : Fed m line m' := hf ▸ m.feed_cases line
  cases fed with
  | skip => exact h
  | leaf _ hc => exact h.append (hl.leaf hc)
  | choiceOpen =>
    exact ⟨h.done, h.opened, fun options ho => by cases ho; simp⟩
  | ifOpen _ hc =>
    exact ⟨h.done, List.forall_mem_cons.mpr ⟨⟨inv.nil, inv.nil, hl.ifOpen hc⟩, h.opened⟩, h.choice⟩
  | terminator => exact h.terminate inv _
  | @arm options hm _ =>
    refine ⟨h.done, h.opened, fun options' ho => ?_⟩
    cases ho
    simp only [List.forall_mem_append, Option.mem_toList]
    exact ⟨h.choice options hm, fun o ho => hl.arm ho⟩
  | @endArms options hm _ => exact h.endChoice inv (h.choice options hm)

/-- So do lines one after the other. -/
theorem foldl_feed (inv : Invariant holds word option) (h : m.Kept holds word option)
    {lines : List Line} (hl : ∀ line ∈ lines, Keeps holds word option line) :
    (lines.foldl Pass.feed m).Kept holds word option := by
  induction lines generalizing m with
  | nil => exact h
  | cons line rest ih =>
    obtain ⟨here, after⟩ := List.forall_mem_cons.mp hl
    exact ih (h.feed inv here) after

/-- At the end of the lines all blocks are closed, and the one at the root has the property. -/
theorem finish (inv : Invariant holds word option) (h : m.Kept holds word option) :
    holds m.finish := by
  unfold Pass.finish
  split
  next options hm => exact ((h.endChoice inv (h.choice options hm)).closeMany inv _).done
  next => exact (h.closeMany inv _).done

end Pass.Kept

/-- A property that every line of a script keeps holds of its tree. -/
theorem Invariant.ofLines (inv : Invariant holds word option) {texts : List (List Char)}
    (h : ∀ line ∈ Line.readAll texts, Keeps holds word option line) :
    holds (ofLines texts) := by
  have start : Pass.start.Kept holds word option :=
    ⟨inv.nil, fun b hb => absurd hb List.not_mem_nil, fun _ h => absurd h (by simp [Pass.start])⟩
  unfold Script.ofLines
  rw [Pass.root_eq_outcome]
  exact (start.foldl_feed inv h).finish inv

end Script

end VisualNovel
