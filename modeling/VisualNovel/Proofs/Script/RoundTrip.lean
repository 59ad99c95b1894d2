import VisualNovel.Proofs.Script.Canonical
import VisualNovel.Proofs.Script.Nodes
import VisualNovel.Proofs.Script.SourceOrder

/-!
# Reading what was written

The lines of a node, fed to a pass, add the node to it:

> `foldl_blockLines`: feeding the lines of a block of canonical nodes puts the block, its
> nodes numbered by position, into the innermost block that is open.

> `parse_write_canonical`: so reading the text of a canonical tree answers the tree.
-/

namespace VisualNovel

open Node Script

namespace Script

variable {n : Node} {b : Block}

/-! ## The lines of a tree -/

/-- A choice is written as its first line, a line for each option, and its end. -/
theorem nodeLines_choice (h : n.kind = .choicePrompt) :
    nodeLines n =
      n.line :: n.options.map ChoiceOption.line ++ [Terminator.endChoice.token] := by
  obtain ⟨_, _, kind, _, _, _, _, _, _, _, _⟩ := n
  cases h
  rw [nodeLines]
  rfl

/-- A conditional is written with both branches, or with one if the second one is empty. -/
theorem nodeLines_conditional (h : n.kind = .conditional) :
    nodeLines n = n.line :: blockLines n.thenBranch
      ++ (if n.elseBranch.isEmpty then []
        else Terminator.otherwise.token :: blockLines n.elseBranch)
      ++ [Terminator.endIf.token] := by
  obtain ⟨_, _, kind, _, _, _, _, _, _, _, _⟩ := n
  cases h
  rw [nodeLines]

/-- Every other node is one line. -/
theorem nodeLines_leaf (hc : n.kind ≠ .choicePrompt) (hk : n.kind ≠ .conditional) :
    nodeLines n = [n.line] := by
  obtain ⟨_, _, kind, _, _, _, _, _, _, _, _⟩ := n
  unfold nodeLines
  cases kind with
  | choicePrompt => exact absurd rfl hc
  | conditional => exact absurd rfl hk
  | _ => rfl

/-- What holds of the line of every node, option and terminator holds of all lines. -/
theorem forall_blockLines {P : String → Prop} (ends : ∀ t : Terminator, P t.token) (b : Block)
    (h : ∀ m ∈ blockNodes b, P m.line ∧ ∀ o ∈ m.options, P o.line) :
    ∀ l ∈ blockLines b, P l := by
  induction b using tree_induction with
  | nil => intro l hl; cases hl
  | cons n ns ihThen ihElse ih =>
    obtain ⟨⟨here, options⟩, inThen, inElse, after⟩ := forall_blockNodes_cons.mp h
    rw [blockLines, List.forall_mem_append]
    refine ⟨?_, ih after⟩
    by_cases hc : n.kind = .choicePrompt
    · rw [nodeLines_choice hc]
      simp only [List.forall_mem_append, List.forall_mem_cons, List.forall_mem_map]
      exact ⟨⟨here, options⟩, ends .endChoice, by simp⟩
    · by_cases hk : n.kind = .conditional
      · rw [nodeLines_conditional hk]
        simp only [List.forall_mem_append, List.forall_mem_cons]
        refine ⟨⟨⟨here, ihThen inThen⟩, ?_⟩, ends .endIf, by simp⟩
        split
        next => simp
        next => exact List.forall_mem_cons.mpr ⟨ends .otherwise, ihElse inElse⟩
      · rw [nodeLines_leaf hc hk]
        simpa using here

namespace Pass

variable {m : Pass}

/-- Reads one line by its text. -/
def feedLine (m : Pass) (l : String) : Pass := m.feed (Line.read 0 l.toList)

/-- The number of a line is no matter. -/
theorem foldl_readFrom (start : Nat) (ls : List String) (m : Pass) :
    (Line.readFrom start (ls.map String.toList)).foldl feed m = ls.foldl feedLine m := by
  rw [Line.foldl_readFrom fun _ _ _ => rfl, List.foldl_map, List.foldl_map]
  rfl

/-- An empty line is no matter. -/
theorem feedLine_empty (m : Pass) : m.feedLine "" = m := by
  obtain ⟨done, opened, choice⟩ := m
  cases choice with
  | none => exact feed_skip rfl (.inl rfl)
  | some options =>
    -- Inside a choice an empty line is an arm without arrows, which is no option.
    refine (feed_arm rfl (by decide)).trans ?_
    rw [show (Line.splitArm (Line.read 0 "".toList).raw).toList = [] from rfl, List.append_nil]

/-- Empty lines do nothing. -/
theorem foldl_feedLine_filter (ls : List String) (m : Pass) :
    (ls.filter (· ≠ "")).foldl feedLine m = ls.foldl feedLine m := by
  induction ls generalizing m with
  | nil => rfl
  | cons l ls ih =>
    by_cases h : l = ""
    · rw [List.filter_cons_of_neg (by simpa using h), ih, List.foldl_cons, h, feedLine_empty]
    · rw [List.filter_cons_of_pos (by simpa using h), List.foldl_cons, ih, List.foldl_cons]

end Pass

/-- The text of a tree is read line by line. -/
theorem parse_write (h : ∀ l ∈ blockLines b, '\n' ∉ l.toList) :
    parse (write b).toList = ((blockLines b).foldl Pass.feedLine .start).finish := by
  let ls := (blockLines b).filter (· ≠ "")
  have text : (write b).toList = (ls.map String.toList).flatMap (· ++ ['\n']) := by
    simp [write, ls, List.flatMap_map]
  have apart : Text.lines (write b).toList = ls.map String.toList := by
    rw [text, Text.lines_flatMap]
    simp only [List.forall_mem_map]
    exact fun l hl => h l (List.mem_of_mem_filter hl)
  rw [parse, apart, ofLines, Line.readAll, Pass.root_eq_outcome, Pass.outcome,
    Pass.foldl_readFrom, Pass.foldl_feedLine_filter]

/-! ## Canonical trees -/

/-- The content of a node with a number is that of the node, its branches numbered from one on. -/
theorem content_renumberNode (seq : Nat) (n : Node) :
    content (renumberNode seq n) =
      { n with
        id := 0, seq := seq
        thenBranch := blockContent (renumberAll 1 n.thenBranch)
        elseBranch := blockContent (renumberAll 1 n.elseBranch) } := by
  obtain ⟨_, _, _, _, _, _, _, _, _, _, _⟩ := n
  rfl

/-- Of a line of dialogue nothing but speaker and text is left. -/
theorem content_of_text (h : n.Tidy) (hk : n.kind = .text) (seq : Nat) :
    content (renumberNode seq n) = (Node.dialogue n.speaker n.text).withSeq seq := by
  have label := h.label (by simp [hk])
  have options := h.options (by simp [hk])
  have branches := h.branches (by simp [hk])
  have word := h.word (.inl hk)
  simp [content_renumberNode, Node.dialogue, ofKind, withSeq, renumberAll, blockContent, *]

/-- Of a label nothing but its name is left. -/
theorem content_of_label (h : n.Tidy) (hk : n.kind = .label) (seq : Nat) :
    content (renumberNode seq n) = (Node.ofLabel n.label).withSeq seq := by
  have dialogue := h.dialogue (by simp [hk])
  have options := h.options (by simp [hk])
  have branches := h.branches (by simp [hk])
  have word := h.word (.inr (.inl hk))
  simp [content_renumberNode, Node.ofLabel, ofKind, withSeq, renumberAll, blockContent, *]

/-- Of a choice nothing but its options is left. -/
theorem content_of_choice (h : n.Tidy) (hk : n.kind = .choicePrompt) (seq : Nat) :
    content (renumberNode seq n) = (Node.choice n.options).withSeq seq := by
  have dialogue := h.dialogue (by simp [hk])
  have label := h.label (by simp [hk])
  have branches := h.branches (by simp [hk])
  have word := h.word (.inr (.inr hk))
  simp [content_renumberNode, Node.choice, ofKind, withSeq, renumberAll, blockContent, *]

/-- Of a conditional its word, its parameters and the contents of its branches are left. -/
theorem content_of_conditional (h : n.Tidy) (hk : n.kind = .conditional) (ht : n.token ≠ "")
    (seq : Nat) :
    content (renumberNode seq n) =
      ((Node.conditional n.params (blockContent (renumberAll 1 n.thenBranch))
        (blockContent (renumberAll 1 n.elseBranch))).withToken n.token).withSeq seq := by
  have dialogue := h.dialogue (by simp [hk])
  have label := h.label (by simp [hk])
  have options := h.options (by simp [hk])
  simp [content_renumberNode, Node.conditional, ofKind, withSeq, withToken, *]

/-- Of a directive nothing but its word and its parameters is left. -/
theorem content_of_directive (h : n.Tidy) (hk : n.kind = .ofToken n.token) (ht : n.token ≠ "")
    (text : n.kind ≠ .text) (label : n.kind ≠ .label) (choice : n.kind ≠ .choicePrompt)
    (conditional : n.kind ≠ .conditional) (seq : Nat) :
    content (renumberNode seq n) = (Node.directive n.token n.params).withSeq seq := by
  have dialogue := h.dialogue text
  have label := h.label label
  have options := h.options choice
  have branches := h.branches conditional
  simp [content_renumberNode, Node.directive, ofKind, withSeq, withToken, withParams,
    renumberAll, blockContent, *]

namespace Pass

variable {m : Pass}

/-- A line that is a canonical node by itself is read as the node. -/
theorem feedLine_leaf (h : n.Canonical) (hc : n.kind ≠ .choicePrompt)
    (hk : n.kind ≠ .conditional) (hm : m.choice = none) (seq : Nat) :
    m.feedLine n.line = m.append (content (renumberNode seq n)) := by
  -- The number that a node has is no matter, since it is given one where it is put.
  have leaf {l : Node} (hl : n.lineContent.leaf? = some l) :
      m.feedLine n.line = m.append (l.withSeq seq) := by
    have fed : m.feedLine n.line = m.append l :=
      feed_leaf hm ((congrArg LineContent.leaf? (h.reads 0)).trans hl)
    exact fed
  cases h.form with
  | narration kind =>
    rw [content_of_text h.tidy kind]
    exact leaf (by rw [lineContent, kind]; rfl)
  | dialogue kind =>
    rw [content_of_text h.tidy kind]
    exact leaf (by rw [lineContent, kind]; rfl)
  | label kind =>
    rw [content_of_label h.tidy kind]
    exact leaf (by rw [lineContent, kind]; rfl)
  | choice kind => exact absurd kind hc
  | conditional kind => exact absurd kind hk
  | directive kind words begins other =>
    obtain ⟨worded, said⟩ := lineContent_directive kind begins other
    have nonempty : n.token ≠ "" := fun h => words.token.1 (by rw [h]; rfl)
    rw [content_of_directive h.tidy kind nonempty (fun h => by simp [h, isWorded] at worded)
      (fun h => by simp [h, isWorded] at worded) hc hk]
    exact leaf (by rw [said]; rfl)

/-- The lines of canonical options add the options to an open choice. -/
theorem foldl_options {options acc : List ChoiceOption} (h : ∀ o ∈ options, o.Canonical)
    (hm : m.choice = some acc) :
    (options.map ChoiceOption.line).foldl feedLine m =
      { m with choice := some (acc ++ options) } := by
  induction options generalizing m acc with
  | nil => simp [← hm]
  | cons o os ih =>
    obtain ⟨ho, hos⟩ := List.forall_mem_cons.mp h
    have fed : m.feedLine o.line = { m with choice := some (acc ++ [o]) } := by
      rw [feedLine, feed_arm hm (o.line_not_terminator 0 _), ho.reads 0]
      rfl
    rw [List.map_cons, List.foldl_cons, fed, ih hos rfl, List.append_assoc]
    rfl

/-- The lines of a choice are read as the choice. -/
theorem foldl_choice (h : n.Canonical) (hk : n.kind = .choicePrompt) (hm : m.choice = none)
    (seq : Nat) : (nodeLines n).foldl feedLine m = m.append (content (renumberNode seq n)) := by
  have opened : m.feedLine n.line = { m with choice := some [] } :=
    feed_choiceOpen hm (by rw [h.reads 0, lineContent, hk])
  have ended : ({ m with choice := some n.options } : Pass).feedLine Terminator.endChoice.token =
      m.append (.choice n.options) := by
    refine (feed_endArms rfl (by decide)).trans ?_
    rw [endChoice, ← hm]
  rw [nodeLines_choice hk, List.cons_append, List.foldl_cons, opened, List.foldl_append,
    foldl_options h.options rfl, content_of_choice h.tidy hk]
  exact ended

/-- The word of a terminator is read as the terminator. -/
theorem feedLine_terminator (hm : m.choice = none) (t : Terminator) :
    m.feedLine t.token = m.terminate t :=
  feed_terminator (t := t) hm (by cases t <;> decide)

/-- Outside a choice, feeding the lines of the block puts it into the innermost one that is
open, its nodes numbered by position. -/
def Fills (b : Block) : Prop :=
  ∀ m : Pass, m.choice = none →
    (blockLines b).foldl feedLine m =
      m.put (blockContent (renumberAll (m.innermost.length + 1) b))

/-- The lines of a conditional are read as the conditional, if those of its branches are. -/
theorem foldl_conditional (h : n.Canonical) (hk : n.kind = .conditional) (hm : m.choice = none)
    (inThen : Fills n.thenBranch) (inElse : Fills n.elseBranch) (seq : Nat) :
    (nodeLines n).foldl feedLine m = m.append (content (renumberNode seq n)) := by
  -- The branches as they are read: each is numbered from one on, since it begins empty.
  let t := blockContent (renumberAll 1 n.thenBranch)
  let e := blockContent (renumberAll 1 n.elseBranch)
  have nonempty : n.token ≠ "" := by
    intro empty
    exact (h.worded (by rw [hk]; rfl)).token.1 (by rw [empty]; rfl)
  have opened : m.feedLine n.line = m.openIf n.token n.params :=
    feed_ifOpen hm (by rw [h.reads 0, lineContent, hk])
  have first : (blockLines n.thenBranch).foldl feedLine (m.openIf n.token n.params) =
      { m with opened := ⟨n.token, n.params, t, none⟩ :: m.opened } :=
    inThen _ hm
  -- An empty second branch has no lines, and a conditional that has none is closed without.
  rw [nodeLines_conditional hk, List.append_assoc, List.cons_append, List.foldl_cons, opened,
    List.foldl_append, first, List.foldl_append, content_of_conditional h.tidy hk nonempty]
  split
  next empty =>
    have closed := feedLine_terminator
      (m := { m with opened := ⟨n.token, n.params, t, none⟩ :: m.opened }) hm .endIf
    refine closed.trans ?_
    rw [List.isEmpty_iff.mp empty]
    rfl
  next =>
    let inBoth : Pass := { m with opened := ⟨n.token, n.params, t, some e⟩ :: m.opened }
    have switched := feedLine_terminator
      (m := { m with opened := ⟨n.token, n.params, t, none⟩ :: m.opened }) hm .otherwise
    have second : (blockLines n.elseBranch).foldl feedLine
        { m with opened := ⟨n.token, n.params, t, some []⟩ :: m.opened } = inBoth :=
      inElse _ hm
    have closed : inBoth.feedLine Terminator.endIf.token = inBoth.close :=
      feedLine_terminator (m := inBoth) hm .endIf
    rw [List.foldl_cons, List.foldl_nil, List.foldl_cons, switched]
    show ((blockLines n.elseBranch).foldl feedLine
      { m with opened := ⟨n.token, n.params, t, some []⟩ :: m.opened }).feedLine _ = _
    rw [second, closed]
    rfl

/-- The lines of a block of canonical nodes do so. -/
theorem foldl_blockLines (h : ∀ n ∈ blockNodes b, n.Canonical) : Fills b := by
  induction b using tree_induction with
  | nil => exact fun m _ => (put_nil m).symm
  | cons n ns ihThen ihElse ih =>
    intro m hm
    obtain ⟨here, canonThen, canonElse, after⟩ := forall_blockNodes_cons.mp h
    let next := m.innermost.length + 1
    have node : (nodeLines n).foldl feedLine m = m.append (content (renumberNode next n)) := by
      by_cases hc : n.kind = .choicePrompt
      · exact foldl_choice here hc hm _
      · by_cases hk : n.kind = .conditional
        · exact foldl_conditional here hk hm (ihThen canonThen) (ihElse canonElse) _
        · rw [nodeLines_leaf hc hk]
          exact feedLine_leaf here hc hk hm _
    have numbered :
        (content (renumberNode next n)).withSeq next = content (renumberNode next n) := by
      rw [content_renumberNode]
      rfl
    have others := ih after (m.append (content (renumberNode next n)))
      ((append_choice _ _).trans hm)
    rw [blockLines, List.foldl_append, node, others, append, innermost_put, put_put, numbered,
      List.length_append, renumberAll, blockContent]
    rfl

end Pass

/-- The lines of a tree of canonical nodes are lines. -/
theorem blockLines_oneLine (h : ∀ n ∈ blockNodes b, n.Canonical) :
    ∀ l ∈ blockLines b, '\n' ∉ l.toList := by
  refine forall_blockLines (fun t => by cases t <;> decide) b fun n hn => ?_
  exact ⟨(h n hn).line_oneLine, fun o ho => ((h n hn).options o ho).line_oneLine⟩

/-- Reading the text of a canonical tree answers the tree, numbered by position. -/
theorem parse_write_canonical (h : ∀ n ∈ blockNodes b, n.Canonical) :
    parse (write b).toList = blockContent (renumber b) := by
  rw [parse_write (blockLines_oneLine h), Pass.foldl_blockLines h _ rfl]
  exact List.nil_append _

/-- Every tree of canonical nodes is read back from its text as it is, numbered by
position. -/
theorem sameBlock_parse_write (scenes : Block) (h : ∀ n ∈ blockNodes scenes, n.Canonical) :
    sameBlock (parse (write scenes).toList) (renumber scenes) = true := by
  rw [sameBlock_iff, parse_write_canonical h, blockContent_blockContent]

/-- A label, a speaker with a quoted text, a choice in a second branch, a directive of no
kind, and numbers that are not the places. -/
def crossroads : Block :=
  [.ofLabel "start", (Node.dialogue "Ann" "\"@wait\", she said").withSeq 7,
    .conditional ["$way", "==", "left"] [.dialogue "" "left it is"]
      [.choice [⟨"turn > left", "*start"⟩, ⟨"go on", ""⟩]],
    .directive "@rain" ["hard"]]

/-- Read back, they are the same with the places for numbers. -/
theorem sameBlock_parse_write_crossroads :
    (∀ n ∈ blockNodes crossroads, n.Canonical) ∧
      sameBlock (parse (write crossroads).toList) (renumber crossroads) = true := by
  have canonical : ∀ n ∈ blockNodes crossroads, n.Canonical := by decide +kernel
  exact ⟨canonical, sameBlock_parse_write crossroads canonical⟩

end Script

end VisualNovel
