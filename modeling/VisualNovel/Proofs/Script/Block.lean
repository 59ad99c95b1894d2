import VisualNovel.Script.Parse

/-!
# Reading a block, line by line

`Script.block` answers its lines left over with a proof of their length. `readBlock` is
the same without the proof, and has one equation for each kind of line; `block_induction`
is the induction that goes with them, `root_induction` the one along the root.

> `readBlock_left`: what a block leaves over is nothing, or begins with a terminator.
-/

namespace VisualNovel

/-- The node of a line that is one by itself. -/
def LineContent.leaf? : LineContent → Option Node
  | .label name => some (.ofLabel name)
  | .directive token params => some (.directive token params)
  | .dialogue speaker text => some (.dialogue speaker text)
  | _ => none

/-- The lines that are a node by themselves. -/
theorem LineContent.leaf_cases {c : LineContent} {n : Node} (h : c.leaf? = some n) :
    (∃ name, c = .label name ∧ n = .ofLabel name) ∨
      (∃ token params, c = .directive token params ∧ n = .directive token params) ∨
      ∃ speaker text, c = .dialogue speaker text ∧ n = .dialogue speaker text := by
  cases c with
  | label name => exact .inl ⟨name, rfl, (Option.some.inj h).symm⟩
  | directive token params => exact .inr (.inl ⟨token, params, rfl, (Option.some.inj h).symm⟩)
  | dialogue speaker text => exact .inr (.inr ⟨speaker, text, rfl, (Option.some.inj h).symm⟩)
  | _ => cases h

namespace Script

/-- The nodes of a block and the lines left over. -/
def readBlock (seq : Nat) (lines : List Line) : Block × List Line :=
  ((block seq lines).1, (block seq lines).2.1)

/-- The second branch of a conditional and the lines left over, from the lines after
its first branch on. -/
def readElse : List Line → Block × List Line
  | [] => ([], [])
  | line :: rest => if isTerminator .otherwise line then readBlock 1 rest else ([], line :: rest)

/-- A block leaves over no more lines than it was given. -/
theorem readBlock_length (seq : Nat) (lines : List Line) :
    (readBlock seq lines).2.length ≤ lines.length :=
  (block seq lines).2.2

/-- So does a second branch. -/
theorem readElse_length (lines : List Line) : (readElse lines).2.length ≤ lines.length := by
  unfold readElse
  split
  next => exact Nat.le_refl _
  next line rest =>
    split
    next => exact Nat.le_succ_of_le (readBlock_length 1 rest)
    next => exact Nat.le_refl _

variable {seq : Nat} {line : Line} {rest : List Line}

theorem isTerminator_iff {t : Terminator} :
    isTerminator t line = true ↔ line.content = .terminator t := by
  unfold isTerminator
  exact beq_iff_eq

/-- A terminator that comes first is passed over. -/
theorem skipTerminator_of_eq {t : Terminator} (h : line.content = .terminator t) :
    skipTerminator t (line :: rest) = rest :=
  if_pos (isTerminator_iff.mpr h)

/-- Any other line is not. -/
theorem skipTerminator_of_ne {t : Terminator} (h : line.content ≠ .terminator t) :
    skipTerminator t (line :: rest) = line :: rest :=
  if_neg fun ht => h (isTerminator_iff.mp ht)

/-- After `@else` the second branch is a block of its own. -/
theorem readElse_of_eq (h : line.content = .terminator .otherwise) :
    readElse (line :: rest) = readBlock 1 rest :=
  if_pos (isTerminator_iff.mpr h)

/-- Without it the second branch is empty and takes no line. -/
theorem readElse_of_ne (h : line.content ≠ .terminator .otherwise) :
    readElse (line :: rest) = ([], line :: rest) :=
  if_neg fun ht => h (isTerminator_iff.mp ht)

@[simp] theorem readBlock_nil : readBlock seq [] = ([], []) := by
  unfold readBlock block
  rfl

/-- Blank lines and comments leave no trace. -/
theorem readBlock_skip (h : line.content = .blank ∨ line.content = .comment) :
    readBlock seq (line :: rest) = readBlock seq rest := by
  unfold readBlock
  rw [block]
  rcases h with h | h
  · simp only [h]
  · simp only [h]

/-- A terminator ends a block and is left over. -/
theorem readBlock_terminator {t : Terminator} (h : line.content = .terminator t) :
    readBlock seq (line :: rest) = ([], line :: rest) := by
  unfold readBlock
  rw [block]
  simp only [h]

/-- A line that is a node by itself comes first in its block. -/
theorem readBlock_leaf {n : Node} (h : line.content.leaf? = some n) :
    readBlock seq (line :: rest) =
      (n.withSeq seq :: (readBlock (seq + 1) rest).1, (readBlock (seq + 1) rest).2) := by
  unfold readBlock
  rw [block]
  rcases LineContent.leaf_cases h with
    ⟨name, hc, rfl⟩ | ⟨token, params, hc, rfl⟩ | ⟨speaker, text, hc, rfl⟩
  · simp only [hc]
  · simp only [hc]
  · simp only [hc]

/-- A choice takes the lines of its options, and the block goes on after them. -/
theorem readBlock_choice (h : line.content = .choiceOpen) :
    readBlock seq (line :: rest) =
      ((Node.choice (arms rest).1).withSeq seq :: (readBlock (seq + 1) (arms rest).2).1,
        (readBlock (seq + 1) (arms rest).2).2) := by
  unfold readBlock
  rw [block]
  simp only [h]

/-- A conditional takes its branches and its `@endif`, and the block goes on after them. -/
theorem readBlock_if {token : String} {params : List String}
    (h : line.content = .ifOpen token params) :
    readBlock seq (line :: rest) =
      let other := readElse (readBlock 1 rest).2
      let after := readBlock (seq + 1) (skipTerminator .endIf other.2)
      (((Node.conditional params (readBlock 1 rest).1 other.1).withToken token).withSeq seq ::
        after.1, after.2) := by
  unfold readBlock
  rw [block]
  simp only [h]
  obtain ⟨thenBranch, left, short⟩ := block 1 rest
  -- Lengths depend on the lines, so that these can only be replaced in both places at once.
  have joins (other : Block × { left : List Line // left.length ≤ rest.length })
      (ho : readElse left = (other.1, other.2.1)) :
      (((Node.conditional params thenBranch other.1).withToken token).withSeq seq ::
          (block (seq + 1) (skipTerminator .endIf other.2.1)).1,
        (block (seq + 1) (skipTerminator .endIf other.2.1)).2.1) =
      (((Node.conditional params thenBranch (readElse left).1).withToken token).withSeq seq ::
          (block (seq + 1) (skipTerminator .endIf (readElse left).2)).1,
        (block (seq + 1) (skipTerminator .endIf (readElse left).2)).2.1) := by
    rw [ho]
  refine joins _ ?_
  cases left with
  | nil => rfl
  | cons first others =>
    dsimp only [readElse]
    split
    next => rfl
    next => rfl

/-- Induction along the reading of a block. -/
theorem block_induction {motive : Nat → List Line → Prop}
    (nil : ∀ seq, motive seq [])
    (skip : ∀ seq line rest, line.content = .blank ∨ line.content = .comment →
      motive seq rest → motive seq (line :: rest))
    (terminator : ∀ seq line rest t, line.content = .terminator t → motive seq (line :: rest))
    (leaf : ∀ seq line rest n, line.content.leaf? = some n →
      motive (seq + 1) rest → motive seq (line :: rest))
    (choice : ∀ seq line rest, line.content = .choiceOpen →
      motive (seq + 1) (arms rest).2 → motive seq (line :: rest))
    (conditional : ∀ seq line rest token params, line.content = .ifOpen token params →
      motive 1 rest →
      (∀ first others, (readBlock 1 rest).2 = first :: others → motive 1 others) →
      motive (seq + 1) (skipTerminator .endIf (readElse (readBlock 1 rest).2).2) →
      motive seq (line :: rest))
    (seq : Nat) (lines : List Line) : motive seq lines := by
  induction hl : lines.length using Nat.strongRecOn generalizing seq lines with
  | ind len ih =>
    -- The cases are those of the reading, each on fewer lines.
    have shorter (seq' : Nat) (lines' : List Line) (h : lines'.length < len) :
        motive seq' lines' := ih _ h _ _ rfl
    cases lines with
    | nil => exact nil seq
    | cons line rest =>
      rw [List.length_cons] at hl
      cases hc : line.content with
      | blank => exact skip _ _ _ (.inl hc) (shorter _ _ (by omega))
      | comment => exact skip _ _ _ (.inr hc) (shorter _ _ (by omega))
      | terminator t => exact terminator _ _ _ t hc
      | label name => exact leaf _ _ _ _ (by rw [hc]; rfl) (shorter _ _ (by omega))
      | directive token params => exact leaf _ _ _ _ (by rw [hc]; rfl) (shorter _ _ (by omega))
      | dialogue speaker text => exact leaf _ _ _ _ (by rw [hc]; rfl) (shorter _ _ (by omega))
      | choiceOpen =>
        have := arms_length rest
        exact choice _ _ _ hc (shorter _ _ (by omega))
      | ifOpen token params =>
        have thenLength := readBlock_length 1 rest
        have elseLength := readElse_length (readBlock 1 rest).2
        have endLength := skipTerminator_length .endIf (readElse (readBlock 1 rest).2).2
        refine conditional _ _ _ _ _ hc (shorter _ _ (by omega)) (fun first others h => ?_)
          (shorter _ _ (by omega))
        rw [h, List.length_cons] at thenLength
        exact shorter _ _ (by omega)

/-- What a block leaves over is nothing, or begins with a terminator. -/
theorem readBlock_left {first : Line} {others : List Line} (seq : Nat) (lines : List Line)
    (h : (readBlock seq lines).2 = first :: others) : ∃ t, first.content = .terminator t := by
  induction seq, lines using block_induction with
  | nil seq => simp at h
  | skip seq line rest hc ih =>
    rw [readBlock_skip hc] at h
    exact ih h
  | terminator seq line rest t hc =>
    rw [readBlock_terminator hc] at h
    obtain ⟨rfl, -⟩ := List.cons.inj h
    exact ⟨t, hc⟩
  | leaf seq line rest n hc ih =>
    rw [readBlock_leaf hc] at h
    exact ih h
  | choice seq line rest hc ih =>
    rw [readBlock_choice hc] at h
    exact ih h
  | conditional seq line rest token params hc _ _ ih =>
    rw [readBlock_if hc] at h
    exact ih h

/-! ## The root block -/

/-- A root block that is read to the end of the lines is all there is. -/
theorem root_of_left_nil {lines : List Line} (h : (readBlock seq lines).2 = []) :
    root seq lines = (readBlock seq lines).1 := by
  unfold readBlock at h ⊢
  rw [root]
  generalize block seq lines = read at h
  obtain ⟨nodes, left, short⟩ := read
  obtain rfl : left = [] := h
  rfl

/-- A terminator at the root is passed over, and the numbers go on. -/
theorem root_of_left_cons {lines others : List Line} {first : Line}
    (h : (readBlock seq lines).2 = first :: others) :
    root seq lines = (readBlock seq lines).1 ++
      root (seq + (readBlock seq lines).1.length) others := by
  unfold readBlock at h ⊢
  rw [root]
  generalize block seq lines = read at h
  obtain ⟨nodes, left, short⟩ := read
  obtain rfl : left = first :: others := h
  rfl

/-- Induction along the reading of the root. -/
theorem root_induction {motive : Nat → List Line → Prop}
    (last : ∀ seq lines, (readBlock seq lines).2 = [] → motive seq lines)
    (stray : ∀ seq lines first others, (readBlock seq lines).2 = first :: others →
      motive (seq + (readBlock seq lines).1.length) others → motive seq lines)
    (seq : Nat) (lines : List Line) : motive seq lines := by
  induction hl : lines.length using Nat.strongRecOn generalizing seq lines with
  | ind len ih =>
    cases hleft : (readBlock seq lines).2 with
    | nil => exact last seq lines hleft
    | cons first others =>
      have short := readBlock_length seq lines
      rw [hleft, List.length_cons] at short
      exact stray seq lines first others hleft (ih _ (by omega) _ _ rfl)

end Script

end VisualNovel
