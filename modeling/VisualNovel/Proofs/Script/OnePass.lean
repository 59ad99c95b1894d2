import VisualNovel.Proofs.Script.Block

/-!
# Reading a script in one pass

`Script.root` reads blocks within blocks, and a terminator ends all of them up to the
one that consumes it. `Pass` reads the same lines one by one with a stack of the open
conditionals: a node is added to the innermost block, `@endif` closes one conditional,
`@else` closes those that are in their second branch, and `@end_choice` closes all.

> `outcome_readBlock`: reading a block at the innermost place and going on with what it
> left over comes to the same as going on line by line.

> `root_eq_outcome`: so both ways of reading answer the same tree.

The step where they differ is the end of a conditional. A block that ends at a
terminator its conditional does not consume has closed that conditional already, while
the pass closes it when the terminator comes; `outcome_close` says that either will do.
-/

namespace VisualNovel

/-- The numbers of lines are no matter to what does not look at them. -/
theorem Line.foldl_readFrom {α : Type} {f : α → Line → α}
    (h : ∀ x k text, f x (read k text) = f x (read 0 text)) (start : Nat)
    (texts : List (List Char)) (x : α) :
    (readFrom start texts).foldl f x = (texts.map (read 0)).foldl f x := by
  induction texts generalizing start x with
  | nil => rfl
  | cons text texts ih =>
    rw [readFrom, List.map_cons, List.foldl_cons, List.foldl_cons, h, ih]

namespace Script

/-- A conditional whose end is still to come. -/
structure OpenIf where
  token : String
  params : List String
  thenBranch : Block
  /-- The second branch once `@else` has opened it. -/
  elseBranch : Option Block

namespace OpenIf

/-- The branch that is open. -/
def current (b : OpenIf) : Block := b.elseBranch.getD b.thenBranch

/-- Adds nodes to the branch that is open. -/
def put (b : OpenIf) (nodes : Block) : OpenIf :=
  match b.elseBranch with
  | none => { b with thenBranch := b.thenBranch ++ nodes }
  | some e => { b with elseBranch := some (e ++ nodes) }

/-- The conditional, ended here. -/
def node (b : OpenIf) : Node :=
  (Node.conditional b.params b.thenBranch (b.elseBranch.getD [])).withToken b.token

end OpenIf

/-- A script that is being read. -/
structure Pass where
  /-- The nodes of the root so far. -/
  done : Block
  /-- The open conditionals, the innermost first. -/
  opened : List OpenIf
  /-- The options so far of a choice that is open. -/
  choice : Option (List ChoiceOption)

namespace Pass

/-- Nothing is read yet. -/
def start : Pass := ⟨[], [], none⟩

/-- The innermost block that is open. -/
def innermost (m : Pass) : Block :=
  match m.opened with
  | [] => m.done
  | b :: _ => b.current

/-- Adds nodes to the innermost block as they are. -/
def put (m : Pass) (nodes : Block) : Pass :=
  match m.opened with
  | [] => { m with done := m.done ++ nodes }
  | b :: bs => { m with opened := b.put nodes :: bs }

/-- Adds a node to the innermost block, numbered by its place there. -/
def append (m : Pass) (n : Node) : Pass := m.put [n.withSeq (m.innermost.length + 1)]

/-- Opens a conditional. -/
def openIf (m : Pass) (token : String) (params : List String) : Pass :=
  { m with opened := ⟨token, params, [], none⟩ :: m.opened }

/-- Closes the innermost conditional, if one is open. -/
def close (m : Pass) : Pass :=
  match m.opened with
  | [] => m
  | b :: bs => { m with opened := bs }.append b.node

/-- Closes so many conditionals from the innermost on. -/
def closeMany : Nat → Pass → Pass
  | 0, m => m
  | k + 1, m => closeMany k m.close

/-- Closes all conditionals. -/
def closeAll (m : Pass) : Pass := closeMany m.opened.length m

/-- How many conditionals from the innermost on are in their second branch. -/
def elseDepth (m : Pass) : Nat := (m.opened.takeWhile (·.elseBranch.isSome)).length

/-- Opens the second branch of the innermost conditional, if one is open. -/
def switch (m : Pass) : Pass :=
  match m.opened with
  | [] => m
  | b :: bs => { m with opened := { b with elseBranch := some [] } :: bs }

/-- Closes what is in its second branch, and opens that of the first one that is not. -/
def otherwise (m : Pass) : Pass := (closeMany m.elseDepth m).switch

/-- Closes what a terminator closes outside a choice. -/
def terminate (m : Pass) : Terminator → Pass
  | .endIf => m.close
  | .otherwise => m.otherwise
  | .endChoice => m.closeAll

/-- Ends the open choice. -/
def endChoice (m : Pass) (options : List ChoiceOption) : Pass :=
  { m with choice := none }.append (.choice options)

/-- Reads one line. -/
def feed (m : Pass) (line : Line) : Pass :=
  match m.choice with
  | some options =>
    if isTerminator .endChoice line then m.endChoice options
    else { m with choice := some (options ++ (Line.splitArm line.raw).toList) }
  | none =>
    match line.content with
    | .blank | .comment => m
    | .label name => m.append (.ofLabel name)
    | .directive token params => m.append (.directive token params)
    | .dialogue speaker text => m.append (.dialogue speaker text)
    | .choiceOpen => { m with choice := some [] }
    | .ifOpen token params => m.openIf token params
    | .terminator t => m.terminate t

/-- The tree when the lines are over: what is open ends here. -/
def finish (m : Pass) : Block :=
  match m.choice with
  | some options => (m.endChoice options).closeAll.done
  | none => m.closeAll.done

/-- The tree that reading further lines comes to. -/
def outcome (m : Pass) (lines : List Line) : Block := (lines.foldl feed m).finish

/-! ## Adding nodes -/

variable {m : Pass} {b : OpenIf} {bs : List OpenIf}

/-- Nodes go to the innermost conditional that is open. -/
theorem put_of_opened (h : m.opened = b :: bs) (nodes : Block) :
    m.put nodes = { m with opened := b.put nodes :: bs } := by
  unfold put
  rw [h]

/-- Nodes that were added end the innermost block. -/
theorem innermost_put (m : Pass) (nodes : Block) :
    (m.put nodes).innermost = m.innermost ++ nodes := by
  obtain ⟨done, opened, choice⟩ := m
  cases opened with
  | nil => rfl
  | cons b bs =>
    obtain ⟨token, params, thenBranch, elseBranch⟩ := b
    cases elseBranch with
    | none => rfl
    | some e => rfl

/-- Adding no nodes changes nothing. -/
theorem put_nil (m : Pass) : m.put [] = m := by
  obtain ⟨done, opened, choice⟩ := m
  cases opened with
  | nil => simp [put]
  | cons b bs =>
    obtain ⟨token, params, thenBranch, elseBranch⟩ := b
    cases elseBranch with
    | none => simp [put, OpenIf.put]
    | some e => simp [put, OpenIf.put]

/-- Nodes may be added all at once. -/
theorem put_put (m : Pass) (nodes nodes' : Block) :
    (m.put nodes).put nodes' = m.put (nodes ++ nodes') := by
  obtain ⟨done, opened, choice⟩ := m
  cases opened with
  | nil => simp [put]
  | cons b bs =>
    obtain ⟨token, params, thenBranch, elseBranch⟩ := b
    cases elseBranch with
    | none => simp [put, OpenIf.put]
    | some e => simp [put, OpenIf.put]

@[simp] theorem put_choice (m : Pass) (nodes : Block) : (m.put nodes).choice = m.choice := by
  unfold put
  split
  next => rfl
  next => rfl

@[simp] theorem append_choice (m : Pass) (n : Node) : (m.append n).choice = m.choice :=
  m.put_choice _

/-- Adding a node opens and closes nothing. -/
theorem length_opened_append (m : Pass) (n : Node) :
    (m.append n).opened.length = m.opened.length := by
  unfold append put
  split
  next => rfl
  next h => rw [h]; rfl

/-- Nodes do not change which branch they are added to. -/
theorem elseDepth_append (m : Pass) (n : Node) : (m.append n).elseDepth = m.elseDepth := by
  obtain ⟨done, opened, choice⟩ := m
  cases opened with
  | nil => rfl
  | cons b bs =>
    obtain ⟨token, params, thenBranch, elseBranch⟩ := b
    cases elseBranch with
    | none => rfl
    | some e => rfl

/-! ## Closing conditionals -/

/-- A conditional that is closed is a node of the block around it. -/
theorem close_of_opened (h : m.opened = b :: bs) :
    m.close = { m with opened := bs }.append b.node := by
  unfold close
  rw [h]

theorem close_choice (m : Pass) : m.close.choice = m.choice := by
  unfold close
  split
  next => rfl
  next => exact append_choice _ _

/-- Closing takes one conditional off the stack, if one is on it. -/
theorem length_opened_close (m : Pass) : m.close.opened.length = m.opened.length - 1 := by
  unfold close
  split
  next h => rw [h]; rfl
  next h => rw [length_opened_append, h]; rfl

/-- Closing the innermost conditional leaves one fewer of those that `@else` closes. -/
theorem elseDepth_close (h : m.opened = b :: bs) (he : b.elseBranch.isSome) :
    m.elseDepth = m.close.elseDepth + 1 := by
  rw [close_of_opened h, elseDepth_append]
  unfold elseDepth
  simp [h, he]

/-- Closing the innermost conditional first makes no difference to a terminator that
closes it too, other than the one that only closes this. -/
theorem terminate_close {t : Terminator} (h : m.opened = b :: bs) (ht : t ≠ .endIf)
    (he : t = .otherwise → b.elseBranch.isSome) : m.close.terminate t = m.terminate t := by
  cases t with
  | endIf => exact absurd rfl ht
  | otherwise =>
    show m.close.otherwise = m.otherwise
    unfold otherwise
    rw [elseDepth_close h (he rfl)]
    rfl
  | endChoice =>
    have shorter : m.opened.length = m.close.opened.length + 1 := by
      rw [length_opened_close, h]
      rfl
    show m.close.closeAll = m.closeAll
    unfold closeAll
    rw [shorter]
    rfl

/-! ## Lines at a time -/

theorem outcome_nil (m : Pass) : m.outcome [] = m.finish := rfl

/-- Lines are read one by one, and what remains open is closed in the end. -/
theorem outcome_cons (m : Pass) (line : Line) (rest : List Line) :
    m.outcome (line :: rest) = (m.feed line).outcome rest := rfl

/-- Blank lines and comments leave no trace. -/
theorem feed_skip {line : Line} (hm : m.choice = none)
    (h : line.content = .blank ∨ line.content = .comment) : m.feed line = m := by
  unfold feed
  rcases h with h | h
  · simp only [hm, h]
  · simp only [hm, h]

/-- A line that is a node by itself is added to the innermost block. -/
theorem feed_leaf {line : Line} {n : Node} (hm : m.choice = none)
    (h : line.content.leaf? = some n) : m.feed line = m.append n := by
  unfold feed
  rcases LineContent.leaf_cases h with
    ⟨name, hc, rfl⟩ | ⟨token, params, hc, rfl⟩ | ⟨speaker, text, hc, rfl⟩
  · simp only [hm, hc]
  · simp only [hm, hc]
  · simp only [hm, hc]

/-- A choice begins without options. -/
theorem feed_choiceOpen {line : Line} (hm : m.choice = none) (h : line.content = .choiceOpen) :
    m.feed line = { m with choice := some [] } := by
  unfold feed
  simp only [hm, h]

/-- A condition opens a conditional. -/
theorem feed_ifOpen {line : Line} {token : String} {params : List String} (hm : m.choice = none)
    (h : line.content = .ifOpen token params) : m.feed line = m.openIf token params := by
  unfold feed
  simp only [hm, h]

/-- Outside a choice a terminator closes conditionals or opens a second branch. -/
theorem feed_terminator {line : Line} {t : Terminator} (hm : m.choice = none)
    (h : line.content = .terminator t) : m.feed line = m.terminate t := by
  unfold feed
  simp only [hm, h]

/-- Inside a choice a line is an option or nothing. -/
theorem feed_arm {line : Line} {options : List ChoiceOption} (hm : m.choice = some options)
    (h : line.content ≠ .terminator .endChoice) :
    m.feed line = { m with choice := some (options ++ (Line.splitArm line.raw).toList) } := by
  unfold feed
  rw [hm]
  exact if_neg fun ht => h (isTerminator_iff.mp ht)

/-- Only `@end_choice` ends a choice. -/
theorem feed_endArms {line : Line} {options : List ChoiceOption} (hm : m.choice = some options)
    (h : line.content = .terminator .endChoice) : m.feed line = m.endChoice options := by
  unfold feed
  rw [hm]
  exact if_pos (isTerminator_iff.mpr h)

/-- What a line can do to a pass. -/
inductive Fed (m : Pass) (line : Line) : Pass → Prop
  | skip (outside : m.choice = none) (content : line.content = .blank ∨ line.content = .comment) :
      Fed m line m
  | leaf {n : Node} (outside : m.choice = none) (content : line.content.leaf? = some n) :
      Fed m line (m.append n)
  | choiceOpen (outside : m.choice = none) (content : line.content = .choiceOpen) :
      Fed m line { m with choice := some [] }
  | ifOpen {token : String} {params : List String} (outside : m.choice = none)
      (content : line.content = .ifOpen token params) : Fed m line (m.openIf token params)
  | terminator {t : Terminator} (outside : m.choice = none)
      (content : line.content = .terminator t) : Fed m line (m.terminate t)
  | arm {options : List ChoiceOption} (inside : m.choice = some options)
      (content : line.content ≠ .terminator .endChoice) :
      Fed m line { m with choice := some (options ++ (Line.splitArm line.raw).toList) }
  | endArms {options : List ChoiceOption} (inside : m.choice = some options)
      (content : line.content = .terminator .endChoice) : Fed m line (m.endChoice options)

/-- Every line does one of these. -/
theorem feed_cases (m : Pass) (line : Line) : Fed m line (m.feed line) := by
  cases hm : m.choice with
  | some options =>
    by_cases h : line.content = .terminator .endChoice
    · rw [feed_endArms hm h]
      exact .endArms hm h
    · rw [feed_arm hm h]
      exact .arm hm h
  | none =>
    have leaf {n : Node} (h : line.content.leaf? = some n) : Fed m line (m.feed line) := by
      rw [feed_leaf hm h]
      exact .leaf hm h
    cases hc : line.content with
    | blank => rw [feed_skip hm (.inl hc)]; exact .skip hm (.inl hc)
    | comment => rw [feed_skip hm (.inr hc)]; exact .skip hm (.inr hc)
    | label name => exact leaf (by rw [hc]; rfl)
    | directive token params => exact leaf (by rw [hc]; rfl)
    | dialogue speaker text => exact leaf (by rw [hc]; rfl)
    | choiceOpen => rw [feed_choiceOpen hm hc]; exact .choiceOpen hm hc
    | ifOpen token params => rw [feed_ifOpen hm hc]; exact .ifOpen hm hc
    | terminator t => rw [feed_terminator hm hc]; exact .terminator hm hc

/-- Where no conditional is open, a terminator closes nothing. -/
theorem feed_stray {line : Line} {t : Terminator} (hm : m.choice = none) (ho : m.opened = [])
    (h : line.content = .terminator t) : m.feed line = m := by
  obtain ⟨done, opened, choice⟩ := m
  cases hm
  cases ho
  rw [feed_terminator rfl h]
  cases t with
  | endIf => rfl
  | otherwise => rfl
  | endChoice => rfl

/-- An open choice takes all lines up to its end. -/
theorem outcome_choice (m : Pass) (options : List ChoiceOption) (lines : List Line) :
    ({ m with choice := some options } : Pass).outcome lines =
      (m.endChoice (options ++ (arms lines).1)).outcome (arms lines).2 := by
  induction lines generalizing options with
  | nil =>
    show (m.endChoice options).closeAll.done = (m.endChoice (options ++ [])).outcome []
    rw [List.append_nil, outcome_nil, finish, endChoice, append_choice]
  | cons line rest ih =>
    rw [outcome_cons]
    unfold feed arms
    dsimp only
    split
    next => rw [List.append_nil]; rfl
    next => rw [ih, List.append_assoc]

/-- A conditional may be closed before a terminator that closes it, or the end of the
lines. -/
theorem outcome_close (hm : m.choice = none) (ho : m.opened = b :: bs) {lines : List Line}
    (h : ∀ first others, lines = first :: others → ∃ t, first.content = .terminator t ∧
      (t = .otherwise → b.elseBranch.isSome)) :
    m.outcome lines = m.close.outcome (skipTerminator .endIf lines) := by
  have hm' : m.close.choice = none := m.close_choice.trans hm
  cases lines with
  | nil =>
    show m.finish = m.close.finish
    unfold finish
    rw [hm, hm']
    exact congrArg done (terminate_close (t := .endChoice) ho (by simp) (by simp)).symm
  | cons first others =>
    obtain ⟨t, ht, he⟩ := h first others rfl
    rw [outcome_cons, feed_terminator hm ht]
    by_cases hend : t = .endIf
    · rw [hend] at ht ⊢
      rw [skipTerminator_of_eq ht]
      rfl
    · rw [skipTerminator_of_ne (by simp [ht, hend]), outcome_cons, feed_terminator hm' ht,
        terminate_close ho hend he]

/-- How a pass goes on through a block that is numbered from `seq` on. -/
def Through (seq : Nat) (lines : List Line) : Prop :=
  ∀ m : Pass, m.choice = none → seq = m.innermost.length + 1 →
    m.outcome lines = (m.put (readBlock seq lines).1).outcome (readBlock seq lines).2

/-- A node at the head of a block may be added before the block is read. -/
theorem Through.node {seq : Nat} {rest : List Line} (h : Through (seq + 1) rest)
    (hm : m.choice = none) (hseq : seq = m.innermost.length + 1) (n : Node) :
    (m.append n).outcome rest =
      (m.put (n.withSeq seq :: (readBlock (seq + 1) rest).1)).outcome
        (readBlock (seq + 1) rest).2 := by
  have next : seq + 1 = (m.append n).innermost.length + 1 := by
    rw [append, innermost_put, List.length_append, hseq]
    rfl
  rw [h (m.append n) ((m.append_choice n).trans hm) next, append, put_put, ← hseq]
  rfl

/-- The second branch of a conditional, if there is one, is read in its place; what is
left over closes the conditional. -/
theorem outcome_readElse {token : String} {params : List String} {thenBranch : Block}
    (hm : m.choice = none) (ho : m.opened = ⟨token, params, thenBranch, none⟩ :: bs)
    {lines : List Line}
    (ends : ∀ first others, lines = first :: others → ∃ t, first.content = .terminator t)
    (through : ∀ first others, lines = first :: others → Through 1 others) :
    m.outcome lines =
      ({ m with opened := bs }.append ((Node.conditional params thenBranch
        (readElse lines).1).withToken token)).outcome
        (skipTerminator .endIf (readElse lines).2) := by
  cases lines with
  | nil =>
    rw [outcome_close hm ho (fun first others h => absurd h (by simp)), close_of_opened ho]
    rfl
  | cons first others =>
    obtain ⟨t, ht⟩ := ends first others rfl
    by_cases hfirst : first.content = .terminator .otherwise
    · let inElse : Pass := { m with opened := ⟨token, params, thenBranch, some []⟩ :: bs }
      have switched : m.otherwise = inElse := by
        unfold otherwise elseDepth
        rw [ho]
        show m.switch = inElse
        unfold switch
        rw [ho]
      -- Both ways read the second branch from the same place, and close the conditional after it.
      have read := through first others rfl inElse hm rfl
      have opened := congrArg Pass.opened
        (put_of_opened (m := inElse) rfl (readBlock 1 others).1)
      rw [outcome_cons, feed_terminator hm hfirst, terminate, switched, read, readElse_of_eq hfirst,
        outcome_close ((inElse.put_choice _).trans hm) opened, close_of_opened opened]
      · rfl
      · intro first others h
        obtain ⟨t, ht⟩ := readBlock_left _ _ h
        exact ⟨t, ht, fun _ => rfl⟩
    · rw [outcome_close hm ho, close_of_opened ho, readElse_of_ne hfirst]
      · rfl
      · intro first' others' h
        obtain ⟨rfl, rfl⟩ := List.cons.inj h
        exact ⟨t, ht, fun h => absurd (h ▸ ht) hfirst⟩

/-- Reading a block at the innermost place comes to the same as reading its lines. -/
theorem outcome_readBlock (seq : Nat) (lines : List Line) : Through seq lines := by
  induction seq, lines using block_induction with
  | nil seq =>
    intro m hm hseq
    rw [readBlock_nil, put_nil]
  | skip seq line rest hc ih =>
    intro m hm hseq
    rw [outcome_cons, feed_skip hm hc, readBlock_skip hc, ih m hm hseq]
  | terminator seq line rest t hc =>
    intro m hm hseq
    rw [readBlock_terminator hc, put_nil]
  | leaf seq line rest n hc ih =>
    intro m hm hseq
    rw [outcome_cons, feed_leaf hm hc, readBlock_leaf hc, ih.node hm hseq]
  | choice seq line rest hc ih =>
    intro m hm hseq
    have ended (options : List ChoiceOption) :
        m.endChoice options = m.append (.choice options) := by
      rw [endChoice, ← hm]
    rw [outcome_cons, feed_choiceOpen hm hc, readBlock_choice hc, outcome_choice, ended,
      List.nil_append, ih.node hm hseq]
  | conditional seq line rest token params hc ihThen ihElse ihRest =>
    intro m hm hseq
    -- The branches are read with the conditional open; where they end, it is closed, whether
    -- or not the line that ends them is its own terminator.
    have read := ihThen (m.openIf token params) hm rfl
    have left : ∀ first others, (readBlock 1 rest).2 = first :: others →
        ∃ t, first.content = .terminator t := fun _ _ => readBlock_left 1 rest
    have closed := outcome_readElse (m := (m.openIf token params).put (readBlock 1 rest).1)
      ((put_choice _ _).trans hm) rfl left ihElse
    rw [outcome_cons, feed_ifOpen hm hc, readBlock_if hc, read, closed]
    exact ihRest.node hm hseq _

/-- Reading the root comes to the same as reading its lines. -/
theorem outcome_root (seq : Nat) (lines : List Line) (nodes : Block)
    (hseq : seq = nodes.length + 1) :
    (⟨nodes, [], none⟩ : Pass).outcome lines = nodes ++ root seq lines := by
  induction seq, lines using root_induction generalizing nodes with
  | last seq lines h =>
    rw [outcome_readBlock seq lines ⟨nodes, [], none⟩ rfl hseq, h, root_of_left_nil h]
    rfl
  | stray seq lines first others h ih =>
    obtain ⟨t, ht⟩ := readBlock_left seq lines h
    rw [outcome_readBlock seq lines ⟨nodes, [], none⟩ rfl hseq, h, root_of_left_cons h,
      outcome_cons, feed_stray rfl rfl ht, ← List.append_assoc]
    refine ih (nodes ++ (readBlock seq lines).1) ?_
    rw [List.length_append]
    omega

/-- Reading blocks within blocks and reading in one pass answer the same tree. -/
theorem root_eq_outcome (lines : List Line) : root 1 lines = start.outcome lines := by
  rw [start, outcome_root 1 lines [] rfl, List.nil_append]

end Pass

end Script

end VisualNovel
