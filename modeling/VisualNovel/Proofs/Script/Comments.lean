import VisualNovel.Proofs.Script.Nodes
import VisualNovel.Proofs.Script.SourceOrder
import VisualNovel.Proofs.Text.Pieces

/-!
# Scripts without their comments

A blank line or a comment outside of a choice is read as nothing. Inside a choice a line is
read as an option if there are arrows in it, and as nothing else, so that a comment with
arrows is an option there:

> `outcome_without`: lines that a pass does not change at may be left out.

> `sameBlock_without_iff`: a script without some of its blank lines and comments has the same
> tree exactly if no comment with arrows is left out of a choice.

That such a comment makes a difference is seen from the number of items: leaving out lines
that do not change where choices are open leaves out their items, and no other.
-/

namespace VisualNovel

open Node Text

namespace Script

/-- The entries of a list without those at some places. -/
def without {α : Type} (gone : Nat → Bool) (xs : List α) : List α :=
  (xs.zipIdx.filter fun p => !gone p.2).map (·.1)

/-- The first item stays or goes, and the others are counted from the next place on. -/
theorem without_cons {α : Type} (gone : Nat → Bool) (x : α) (xs : List α) :
    without gone (x :: xs) =
      if gone 0 then without (fun i => gone (i + 1)) xs
      else x :: without (fun i => gone (i + 1)) xs := by
  have later : (xs.zipIdx 1).filter (fun p => !gone p.2) =
      (xs.zipIdx.filter fun p => !gone (p.2 + 1)).map fun p => (p.1, p.2 + 1) := by
    rw [List.zipIdx_succ, List.filter_map]
    rfl
  unfold without
  rw [List.zipIdx_cons, List.filter_cons, Nat.zero_add, later]
  cases gone 0 with
  | true => simp
  | false => simp

theorem map_without {α β : Type} (f : α → β) (gone : Nat → Bool) (xs : List α) :
    (without gone xs).map f = without gone (xs.map f) := by
  induction xs generalizing gone with
  | nil => rfl
  | cons x xs ih =>
    rw [List.map_cons, without_cons, without_cons, ← ih]
    split
    next => rfl
    next => rfl

end Script

namespace Line

open Script

/-- Whether a choice is open after lines. -/
def endsInChoice (inChoice : Bool) (lines : List Line) : Bool :=
  lines.foldl (fun inside line => line.leavesChoice inside) inChoice

/-- The line is blank or a comment. -/
def Silent (line : Line) : Prop := line.content = .blank ∨ line.content = .comment

variable {line : Line}

/-- A blank line and a comment are silent, wherever they stand. -/
theorem silent_of_text {text : List Char} (h : trim text = [] ∨ ['/', '/'] <+: trim text)
    (k : Nat) : (read k text).Silent := by
  show classify (trim text) = .blank ∨ classify (trim text) = .comment
  unfold classify
  split
  next => exact .inl rfl
  next filled =>
    have begins : startsWith "//" (trim text) = true :=
      List.isPrefixOf_iff_prefix.mpr (h.resolve_left filled)
    rw [if_pos begins]
    exact .inr rfl

theorem Silent.not_terminator (h : line.Silent) (t : Terminator) :
    line.content ≠ .terminator t := by
  rcases h with h | h
  · simp [h]
  · simp [h]

/-- Such a line leaves open what is open. -/
theorem Silent.leavesChoice (h : line.Silent) (inChoice : Bool) :
    line.leavesChoice inChoice = inChoice := by
  unfold Line.leavesChoice
  cases inChoice with
  | true => simp [Script.isTerminator, h.not_terminator]
  | false =>
    rcases h with h | h
    · simp [h]
    · simp [h]

/-- Inside a choice, such a line has an item if it is an option. -/
theorem Silent.items (h : line.Silent) :
    line.items true = (splitArm line.raw).toList.map .option := by
  simp [Line.items, Script.isTerminator, h.not_terminator]

/-- A line without arrows is no option. -/
theorem splitArm_eq_none_iff {cs : List Char} : splitArm cs = none ↔ ¬['>', '>'] <:+: cs := by
  unfold splitArm
  rw [Option.map_eq_none_iff, splitAtArrows_eq_none_iff]

/-- Leaving out blank lines and comments adds no item. -/
theorem length_sourceItems_without_le (lines : List Line) (gone : Nat → Bool) (inChoice : Bool)
    (silent : ∀ i line, lines[i]? = some line → gone i = true → line.Silent) :
    (sourceItems inChoice (without gone lines)).length ≤ (sourceItems inChoice lines).length := by
  induction lines generalizing gone inChoice with
  | nil => exact Nat.le_refl _
  | cons first rest ih =>
    have others (inside : Bool) :=
      ih (fun i => gone (i + 1)) inside fun i line => silent (i + 1) line
    rw [without_cons, sourceItems, List.length_append]
    cases hgone : gone 0 with
    | true =>
      rw [if_pos rfl, (silent 0 first rfl hgone).leavesChoice]
      exact (others inChoice).trans (Nat.le_add_left _ _)
    | false =>
      rw [if_neg Bool.false_ne_true, sourceItems, List.length_append]
      exact Nat.add_le_add_left (others _) _

/-- If no item is left out, none of the lines that are is an option. -/
theorem noOption_of_length_eq (lines : List Line) (gone : Nat → Bool) (inChoice : Bool)
    (silent : ∀ i line, lines[i]? = some line → gone i = true → line.Silent)
    (same : (sourceItems inChoice (without gone lines)).length =
      (sourceItems inChoice lines).length) :
    ∀ i line, lines[i]? = some line → gone i = true →
      endsInChoice inChoice (lines.take i) = true → splitArm line.raw = none := by
  induction lines generalizing gone inChoice with
  | nil => exact fun i line h => by simp at h
  | cons first rest ih =>
    intro i line hline hi inside
    have later (i : Nat) (line : Line) := silent (i + 1) line
    rw [without_cons, sourceItems, List.length_append] at same
    cases hgone : gone 0 with
    | true =>
      have here := silent 0 first rfl hgone
      have fewer := length_sourceItems_without_le rest (fun i => gone (i + 1)) inChoice later
      rw [hgone, if_pos rfl, here.leavesChoice] at same
      cases i with
      | zero =>
        -- The items behind the line are no more than before, so it has none itself.
        obtain rfl := Option.some.inj hline
        obtain rfl : inChoice = true := inside
        have none : (first.items true).length = 0 := by omega
        rw [here.items, List.length_map] at none
        simpa using none
      | succ i =>
        refine ih (fun i => gone (i + 1)) inChoice later (by omega) i line hline hi ?_
        rw [List.take_succ_cons, endsInChoice, List.foldl_cons, here.leavesChoice] at inside
        exact inside
    | false =>
      rw [hgone, if_neg Bool.false_ne_true, sourceItems, List.length_append] at same
      cases i with
      | zero => exact absurd hi (by simp [hgone])
      | succ i => exact ih _ _ later (Nat.add_left_cancel same) i line hline hi inside

end Line

namespace Script

namespace Pass

variable {m : Pass} {line : Line}

/-- A blank line or a comment that is no option changes nothing. -/
theorem feed_silent (h : line.Silent)
    (noOption : m.choice.isSome = true → Line.splitArm line.raw = none) : m.feed line = m := by
  obtain ⟨done, opened, choice⟩ := m
  cases choice with
  | none => exact feed_skip rfl h
  | some options =>
    rw [feed_arm rfl (h.not_terminator _), noOption rfl]
    simp

/-- Lines that a pass does not change at may be left out. -/
theorem outcome_without (lines : List Line) (gone : Nat → Bool) (m : Pass)
    (silent : ∀ i line, lines[i]? = some line → gone i = true → line.Silent)
    (noOption : ∀ i line, lines[i]? = some line → gone i = true →
      Line.endsInChoice m.choice.isSome (lines.take i) = true → Line.splitArm line.raw = none) :
    m.outcome (without gone lines) = m.outcome lines := by
  induction lines generalizing gone m with
  | nil => rfl
  | cons first rest ih =>
    have others := ih (fun i => gone (i + 1)) (m.feed first) (fun i line => silent (i + 1) line)
      fun i line hline hi inside => by
        refine noOption (i + 1) line hline hi ?_
        rw [List.take_succ_cons, Line.endsInChoice, List.foldl_cons, ← choice_feed]
        exact inside
    rw [without_cons, outcome_cons]
    cases hgone : gone 0 with
    | true =>
      have here : m.feed first = m := feed_silent (silent 0 first rfl hgone)
        (noOption 0 first rfl hgone)
      rw [if_pos rfl, ← others, here]
    | false => rw [if_neg Bool.false_ne_true, outcome_cons, others]

end Pass

theorem endsInChoice_readAll (texts : List (List Char)) :
    Line.endsInChoice false (Line.readAll texts) =
      Line.endsInChoice false (texts.map (Line.read 0)) :=
  Line.foldl_readFrom (fun _ _ _ => rfl) 1 texts false

theorem ofLines_eq_outcome (texts : List (List Char)) :
    ofLines texts = Pass.start.outcome (texts.map (Line.read 0)) := by
  rw [ofLines, Pass.root_eq_outcome, Pass.outcome, Line.readAll,
    Line.foldl_readFrom fun _ _ _ => rfl]
  rfl

theorem blockItems_outcome (lines : List Line) :
    blockItems (Pass.start.outcome lines) = Line.sourceItems false lines := by
  rw [Pass.outcome, Pass.blockItems_finish, Pass.items_foldl_feed]
  rfl

/-- Identities are no matter to the number of items. -/
theorem length_blockItems_content (b : Block) :
    (blockItems (blockContent b)).length = (blockItems b).length := by
  induction b using tree_induction with
  | nil => rfl
  | cons n ns ihThen ihElse ih =>
    obtain ⟨_, _, _, _, _, _, _, _, _, t, e⟩ := n
    rw [blockContent, content, blockItems, blockItems, items, items]
    simp only [List.length_append, List.length_cons, List.length_map, ih]
    rw [show (blockItems (blockContent t)).length = (blockItems t).length from ihThen,
      show (blockItems (blockContent e)).length = (blockItems e).length from ihElse]

/-- Leaving blank lines and comments out keeps the tree exactly if none of them is an option. -/
theorem sameBlock_outcome_without_iff (lines : List Line) (gone : Nat → Bool)
    (silent : ∀ i line, lines[i]? = some line → gone i = true → line.Silent) :
    sameBlock (Pass.start.outcome (without gone lines)) (Pass.start.outcome lines) = true ↔
      ∀ i line, lines[i]? = some line → gone i = true →
        Line.endsInChoice false (lines.take i) = true → Line.splitArm line.raw = none := by
  constructor
  · intro same
    refine Line.noOption_of_length_eq lines gone false silent ?_
    rw [← blockItems_outcome, ← blockItems_outcome, ← length_blockItems_content,
      (sameBlock_iff _ _).mp same, length_blockItems_content]
  · intro noOption
    rw [Pass.outcome_without lines gone .start silent noOption, sameBlock_iff]

/-- Leaving blank lines and comments out of a script keeps its tree exactly if no comment with
arrows is left out of a choice. -/
theorem sameBlock_without_iff (texts : List (List Char)) (gone : Nat → Bool)
    (silent : ∀ i text, texts[i]? = some text → gone i = true →
      trim text = [] ∨ ['/', '/'] <+: trim text) :
    sameBlock (ofLines (without gone texts)) (ofLines texts) = true ↔
      ∀ i text, texts[i]? = some text → gone i = true →
        Line.endsInChoice false (Line.readAll (texts.take i)) = true →
          ¬['>', '>'] <:+: trim text := by
  have silentLine : ∀ i line, (texts.map (Line.read 0))[i]? = some line → gone i = true →
      line.Silent := by
    intro i line hline hi
    obtain ⟨text, htext, rfl⟩ := Option.map_eq_some_iff.mp (List.getElem?_map .. ▸ hline)
    exact Line.silent_of_text (silent i text htext hi) 0
  rw [ofLines_eq_outcome, ofLines_eq_outcome, map_without,
    sameBlock_outcome_without_iff _ gone silentLine]
  refine forall_congr' fun i => ?_
  rw [List.getElem?_map, ← List.map_take, ← endsInChoice_readAll]
  cases texts[i]? with
  | none => simp
  | some text =>
    have arrows : Line.splitArm (Line.read 0 text).raw = none ↔ ¬['>', '>'] <:+: trim text :=
      Line.splitArm_eq_none_iff
    simp [arrows]

/-- A commented script: a comment with arrows at the root, a choice with a blank line and a
comment without arrows in it, and a comment in a branch. -/
def commented : List (List Char) :=
  ["// start >> here", "@choice", "\"go\" >> on", "", "  // no more", "@end_choice", "@if $a == 1",
    "  // once", "hello", "@endif"].map String.toList

/-- All of its comments and the blank line may go. -/
theorem sameBlock_without_commented :
    (∀ i text, commented[i]? = some text → [0, 3, 4, 7].contains i = true →
        trim text = [] ∨ ['/', '/'] <+: trim text) ∧
      sameBlock (ofLines (without [0, 3, 4, 7].contains commented)) (ofLines commented) = true := by
  have silent : ∀ i text, commented[i]? = some text → [0, 3, 4, 7].contains i = true →
      trim text = [] ∨ ['/', '/'] <+: trim text := by
    intro i text htext
    obtain ⟨hi, rfl⟩ := List.getElem?_eq_some_iff.mp htext
    clear htext
    revert i
    decide +kernel
  refine ⟨silent, (sameBlock_without_iff commented _ silent).mpr ?_⟩
  intro i text htext
  obtain ⟨hi, rfl⟩ := List.getElem?_eq_some_iff.mp htext
  clear htext
  revert i
  decide +kernel

/-- A choice with an option that is commented out. -/
def commentedOut : List (List Char) :=
  ["@choice", "\"left\" >> a", "// \"right\" >> b", "@end_choice"].map String.toList

/-- It is an option still: without the comment the tree is another. -/
theorem comment_in_choice :
    (∀ i text, commentedOut[i]? = some text → (i == 2) = true →
        trim text = [] ∨ ['/', '/'] <+: trim text) ∧
      (ofLines commentedOut).map (fun n => n.options.map (·.text)) =
        [["left", "// \"right\""]] ∧
      sameBlock (ofLines (without (· == 2) commentedOut)) (ofLines commentedOut) = false := by
  refine ⟨?_, by decide +kernel⟩
  intro i text htext isTwo
  obtain rfl : i = 2 := by simpa using isTwo
  obtain rfl := Option.some.inj htext
  decide +kernel

end Script

end VisualNovel
