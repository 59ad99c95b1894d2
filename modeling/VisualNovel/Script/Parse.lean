import VisualNovel.Script.Line

/-!
# Reading a script

A block is read up to a terminator or the end of the lines. Reading never fails:
a block without its terminator runs to the end, unknown directives become nodes of
their own, and a terminator that closes nothing is skipped. Inside a choice block
every line that is not `@end_choice` is an option or is ignored.

A directive with the word of a terminator would be passed over, but a line that begins
with such a word is read as the terminator, so `block` never meets one and has no case
for it.

`block` answers the lines it left over together with the fact that they are no
more than it was given, so reading ends because the lines run out.
-/

namespace VisualNovel

namespace Script

/-- Whether a line is the given terminator. -/
def isTerminator (t : Terminator) (line : Line) : Bool := line.content == .terminator t

/-- The options of an opened choice and the lines after its end. -/
def arms : List Line → List ChoiceOption × List Line
  | [] => ([], [])
  | line :: rest =>
    if isTerminator .endChoice line then ([], rest)
    else
      let (options, rest) := arms rest
      ((Line.splitArm line.raw).toList ++ options, rest)

/-- The options take no lines that are not there. -/
theorem arms_length (lines : List Line) : (arms lines).2.length ≤ lines.length := by
  induction lines with
  | nil => simp [arms]
  | cons line rest ih =>
    unfold arms
    split
    · simp
    · simpa using Nat.le_succ_of_le ih

/-- The lines after a terminator if it comes first, all lines otherwise. -/
def skipTerminator (t : Terminator) : List Line → List Line
  | [] => []
  | line :: rest => if isTerminator t line then rest else line :: rest

/-- Passing over a terminator leaves no more lines. -/
theorem skipTerminator_length (t : Terminator) (lines : List Line) :
    (skipTerminator t lines).length ≤ lines.length := by
  cases lines with
  | nil => simp [skipTerminator]
  | cons line rest =>
    simp only [skipTerminator]
    split <;> simp

/-- The nodes of a block, numbered from `seq` on, and the lines left over: none,
or some that begin with a terminator. -/
def block (seq : Nat) (lines : List Line) :
    Block × { rest : List Line // rest.length ≤ lines.length } :=
  match lines with
  | [] => ([], ⟨[], Nat.le_refl _⟩)
  | line :: rest =>
    match line.content with
    | .blank | .comment =>
      let (nodes, ⟨left, h⟩) := block seq rest
      (nodes, ⟨left, Nat.le_succ_of_le h⟩)
    | .terminator _ => ([], ⟨line :: rest, Nat.le_refl _⟩)
    | .label name =>
      let (nodes, ⟨left, h⟩) := block (seq + 1) rest
      ((Node.ofLabel name).withSeq seq :: nodes, ⟨left, Nat.le_succ_of_le h⟩)
    | .directive token params =>
      let (nodes, ⟨left, h⟩) := block (seq + 1) rest
      ((Node.directive token params).withSeq seq :: nodes, ⟨left, Nat.le_succ_of_le h⟩)
    | .dialogue speaker text =>
      let (nodes, ⟨left, h⟩) := block (seq + 1) rest
      ((Node.dialogue speaker text).withSeq seq :: nodes, ⟨left, Nat.le_succ_of_le h⟩)
    | .choiceOpen =>
      let options := (arms rest).1
      have h₁ := arms_length rest
      let (nodes, ⟨left, h₂⟩) := block (seq + 1) (arms rest).2
      ((Node.choice options).withSeq seq :: nodes,
        ⟨left, Nat.le_succ_of_le (Nat.le_trans h₂ h₁)⟩)
    | .ifOpen token params =>
      let (thenBranch, ⟨afterThen, h₁⟩) := block 1 rest
      let (elseBranch, ⟨afterElse, h₂⟩) :
          Block × { left : List Line // left.length ≤ rest.length } :=
        match afterThen, h₁ with
        | [], _ => ([], ⟨[], Nat.zero_le _⟩)
        | first :: others, h₁ =>
          if isTerminator .otherwise first then
            let (nodes, ⟨left, h⟩) := block 1 others
            (nodes, ⟨left, Nat.le_trans h (Nat.le_trans (Nat.le_succ _) h₁)⟩)
          else ([], ⟨first :: others, h₁⟩)
      have h₃ := skipTerminator_length .endIf afterElse
      let (nodes, ⟨left, h₄⟩) := block (seq + 1) (skipTerminator .endIf afterElse)
      (((Node.conditional params thenBranch elseBranch).withToken token).withSeq seq :: nodes,
        ⟨left, Nat.le_succ_of_le (Nat.le_trans h₄ (Nat.le_trans h₃ h₂))⟩)
termination_by lines.length
decreasing_by
  all_goals simp only [List.length_cons] at *
  all_goals omega

/-- The nodes of the root block from `seq` on. A terminator that ends a block here
closes nothing and is skipped. -/
def root (seq : Nat) (lines : List Line) : Block :=
  match block seq lines with
  | (nodes, ⟨[], _⟩) => nodes
  | (nodes, ⟨_ :: rest, _⟩) => nodes ++ root (seq + nodes.length) rest
termination_by lines.length
decreasing_by
  simp only [List.length_cons] at *
  omega

/-- The scene list of a script given by its lines. -/
def ofLines (texts : List (List Char)) : Block := root 1 (Line.readAll texts)

/-- The scene list of a script given as one text. -/
def parse (source : List Char) : Block := ofLines (Text.lines source)

end Script

end VisualNovel
