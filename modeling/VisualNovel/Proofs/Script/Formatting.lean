import VisualNovel.Proofs.Script.Parsed
import VisualNovel.Proofs.Script.RoundTrip

/-!
# Formatting a script

To format a script is to read it and to write it again. The nodes of a script are read
back from their lines, dialogue with a blank speaker apart: it is written as bare text, and
what bare text says may be something else.

> `reads_of_told`: if the lines of a tree, in their order, tell of the nodes of the tree,
> then each such dialogue is read back from its line.

> `sameBlock_format_iff`: formatting keeps a script exactly if each such dialogue has no
> speaker at all and a text that is read as narration.
-/

namespace VisualNovel

open Text Node Script

/-! ## What is told of nodes -/

/-- The kind, the speaker and the text of a node. -/
def Node.told (n : Node) : Kind × String × String := (n.kind, n.speaker, n.text)

/-- What is told of an item that is a node. -/
def Item.told : Item → Option (Kind × String × String)
  | .node n => some n.told
  | .option _ => none

namespace Line

/-- A line given by its text. -/
def ofString (l : String) : Line := read 0 l.toList

/-- What lines tell of nodes, one after the other. -/
def told (inChoice : Bool) (ls : List String) : List (Kind × String × String) :=
  (sourceItems inChoice (ls.map ofString)).filterMap Item.told

variable {l : String} {rest : List String}

theorem told_cons (inChoice : Bool) (l : String) (rest : List String) :
    told inChoice (l :: rest) =
      ((ofString l).items inChoice).filterMap Item.told ++
        told ((ofString l).leavesChoice inChoice) rest := by
  rw [told, List.map_cons, sourceItems, List.filterMap_append]
  rfl

/-- A line that opens no choice leaves the lines after it outside. -/
theorem told_outside {c : LineContent} (h : (ofString l).content = c) (hc : c ≠ .choiceOpen)
    (rest : List String) :
    told false (l :: rest) =
      ((ofString l).items false).filterMap Item.told ++ told false rest := by
  have outside : (ofString l).leavesChoice false = false := by
    subst h
    simpa [leavesChoice] using hc
  rw [told_cons, outside]

theorem told_leaf {n : Node} (h : (ofString l).content.leaf? = some n) :
    told false (l :: rest) = n.told :: told false rest := by
  have tells : ((ofString l).items false).filterMap Item.told = [n.told] := by
    rw [items_of_leaf h]
    rcases LineContent.leaf_cases h with ⟨name, -, rfl⟩ | ⟨token, params, -, rfl⟩ |
      ⟨speaker, text, -, rfl⟩
    · rfl
    · rfl
    · rfl
  have closed : (ofString l).content ≠ .choiceOpen := fun hc => by
    rw [hc] at h
    cases h
  rw [told_outside rfl closed, tells]
  rfl

theorem told_ifOpen {token : String} {params : List String}
    (h : (ofString l).content = .ifOpen token params) :
    told false (l :: rest) = (.conditional, "", "") :: told false rest := by
  rw [told_outside h (by simp)]
  unfold items
  rw [h]
  rfl

theorem told_choiceOpen (h : (ofString l).content = .choiceOpen) :
    told false (l :: rest) = (.choicePrompt, "", "") :: told true rest := by
  rw [told_cons]
  unfold items leavesChoice
  rw [h]
  rfl

/-- Lines that are no node outside a choice tell of none. -/
theorem told_silent (h : (ofString l).content = .blank ∨ (ofString l).content = .comment ∨
      ∃ t, (ofString l).content = .terminator t) :
    told false (l :: rest) = told false rest := by
  rcases h with h | h | ⟨t, h⟩
  · rw [told_outside h (by simp), items_of_skip (.inl h)]
    rfl
  · rw [told_outside h (by simp), items_of_skip (.inr h)]
    rfl
  · rw [told_outside h (by simp), items_of_terminator h]
    rfl

/-- Inside a choice no line tells of a node. -/
theorem told_inChoice (l : String) (rest : List String) :
    told true (l :: rest) = told ((ofString l).leavesChoice true) rest := by
  rw [told_cons]
  unfold items
  rw [if_pos rfl]
  split
  next => rfl
  next =>
    cases splitArm (ofString l).raw with
    | none => rfl
    | some o => rfl

/-- The options of a choice and its end are passed over. -/
theorem told_options (options : List ChoiceOption) (rest : List String) :
    told true (options.map ChoiceOption.line ++ Terminator.endChoice.token :: rest) =
      told false rest := by
  induction options with
  | nil => exact (told_inChoice _ rest).trans (by rw [show leavesChoice _ true = false by decide])
  | cons o os ih =>
    have stays : (ofString o.line).leavesChoice true = true := by
      have := o.line_not_terminator 0 .endChoice
      simpa [leavesChoice, isTerminator, ofString] using this
    rw [List.map_cons, List.cons_append, told_inChoice, stays, ih]

/-! ## No more than there are nodes -/

/-- The lines tell of so many nodes at most, inside a choice or not. -/
def AtMost (k : Nat) (ls : List String) : Prop := ∀ inChoice, (told inChoice ls).length ≤ k

theorem length_items_le (line : Line) (inChoice : Bool) : (line.items inChoice).length ≤ 1 := by
  unfold items
  split
  next =>
    split
    next => exact Nat.zero_le _
    next => simp
  next =>
    split
    next => exact Nat.le_refl _
    next => exact Nat.le_refl _
    next => simp

variable {k : Nat}

/-- A line tells of one node at most. -/
theorem AtMost.cons (h : AtMost k rest) (l : String) : AtMost (k + 1) (l :: rest) := by
  intro inChoice
  have here := (List.length_filterMap_le Item.told ((ofString l).items inChoice)).trans
    (length_items_le _ inChoice)
  have after := h ((ofString l).leavesChoice inChoice)
  rw [told_cons, List.length_append]
  omega

/-- A terminator tells of none. -/
theorem AtMost.terminator (h : AtMost k rest) (t : Terminator) :
    AtMost k (t.token :: rest) := by
  intro inChoice
  cases inChoice with
  | true =>
    rw [told_inChoice]
    exact h _
  | false =>
    rw [told_silent (.inr (.inr ⟨t, by cases t <;> decide⟩))]
    exact h false

/-- A choice tells of itself only. -/
theorem AtMost.choice (h : AtMost k rest) (options : List ChoiceOption) :
    AtMost (k + 1) ("@choice" :: (options.map ChoiceOption.line ++
      Terminator.endChoice.token :: rest)) := by
  intro inChoice
  cases inChoice with
  | true =>
    rw [told_inChoice, show (ofString "@choice").leavesChoice true = true by decide, told_options]
    exact Nat.le_succ_of_le (h false)
  | false =>
    rw [told_choiceOpen (by decide), told_options]
    exact Nat.succ_le_succ (h false)

/-- The lines of a block tell of no more nodes than there are in it. -/
theorem AtMost.blockLines (h : AtMost k rest) (b : Block) :
    AtMost (blockSize b + k) (Script.blockLines b ++ rest) := by
  induction b using tree_induction generalizing k rest with
  | nil => simpa [Script.blockLines, blockSize] using h
  | cons n ns ihThen ihElse ih =>
    have after := ih h
    have more {i : Nat} {ls : List String} (hls : AtMost i ls)
        (hi : i ≤ n.size + blockSize ns + k) : AtMost (n.size + blockSize ns + k) ls :=
      fun inChoice => (hls inChoice).trans hi
    rw [size_eq] at more
    rw [Script.blockLines, List.append_assoc, blockSize, size_eq]
    by_cases hc : n.kind = .choicePrompt
    · rw [nodeLines_choice hc, line_choice hc, List.append_assoc]
      exact more (after.choice n.options) (by omega)
    · by_cases hk : n.kind = .conditional
      · rw [nodeLines_conditional hk, List.append_assoc, List.append_assoc, List.cons_append]
        have closed := after.terminator .endIf
        have other : AtMost (blockSize n.elseBranch + (blockSize ns + k))
            ((if n.elseBranch.isEmpty then []
              else Terminator.otherwise.token :: Script.blockLines n.elseBranch) ++
                Terminator.endIf.token :: (Script.blockLines ns ++ rest)) := by
          split
          next => exact fun inChoice => (closed inChoice).trans (Nat.le_add_left _ _)
          next => exact (ihElse closed).terminator .otherwise
        exact more ((ihThen other).cons n.line) (by omega)
      · rw [nodeLines_leaf hc hk]
        exact more (after.cons n.line) (by omega)

end Line

/-- The line of a node is read as what the node is. -/
def Node.IsRead (n : Node) : Prop := (Line.ofString n.line).content = n.lineContent

namespace Script

open Line

/-! ## What is told of a tree -/

/-- The items of a tree tell of its nodes in preorder. -/
theorem filterMap_blockItems (b : Block) :
    (blockItems b).filterMap Item.told = (blockNodes b).map Node.told := by
  induction b using tree_induction with
  | nil => rfl
  | cons n ns ihThen ihElse ih =>
    have options : (n.options.map Item.option).filterMap Item.told = [] := by
      simp [List.filterMap_map, Function.comp_def, Item.told]
    rw [blockItems, List.filterMap_append, ih, blockNodes, nodes_eq, List.map_append,
      List.map_cons, List.map_append, ← ihThen, ← ihElse]
    obtain ⟨_, _, _, _, _, _, _, _, _, _, _⟩ := n
    rw [Node.items, List.filterMap_cons, List.filterMap_append, List.filterMap_append, options]
    rfl

/-- Structural equality leaves what is told. -/
theorem map_told_blockContent (b : Block) :
    (blockNodes (blockContent b)).map Node.told = (blockNodes b).map Node.told := by
  induction b using tree_induction with
  | nil => rfl
  | cons n ns ihThen ihElse ih =>
    rw [blockContent, blockNodes, blockNodes, List.map_append, List.map_append, ih, nodes_eq,
      nodes_eq, content_eq]
    simp [ihThen, ihElse, Node.told]

variable {n : Node} {rest : List String} {more : List (Kind × String × String)}

/-- Where a nameless dialogue is told of, its line is read as the dialogue. -/
theorem reads_nameless (form : n.Nameless) (short : AtMost more.length rest)
    (h : told false (n.line :: rest) = n.told :: more) :
    n.IsRead ∧ told false rest = more := by
  have missing (h' : told false (n.line :: rest) = told false rest) : False := by
    have fewer := short false
    rw [← h', h, List.length_cons] at fewer
    omega
  rw [Node.told, form.kind] at h
  rw [IsRead, lineContent, form.kind]
  -- What tells of no node leaves one to be told of by too few lines.
  cases hc : (ofString n.line).content with
  | blank => exact (missing (told_silent (.inl hc))).elim
  | comment => exact (missing (told_silent (.inr (.inl hc)))).elim
  | terminator t => exact (missing (told_silent (.inr (.inr ⟨t, hc⟩)))).elim
  | label name =>
    rw [told_leaf (n := .ofLabel name) (by rw [hc]; rfl)] at h
    exact Kind.noConfusion (congrArg Prod.fst (List.cons.inj h).1)
  | choiceOpen =>
    rw [told_choiceOpen hc] at h
    exact Kind.noConfusion (congrArg Prod.fst (List.cons.inj h).1)
  | ifOpen token params =>
    rw [told_ifOpen hc] at h
    exact Kind.noConfusion (congrArg Prod.fst (List.cons.inj h).1)
  | directive token params =>
    rw [told_leaf (n := .directive token params) (by rw [hc]; rfl)] at h
    have kind : Kind.ofToken token = .text := congrArg Prod.fst (List.cons.inj h).1
    have words := directiveWords_of_read hc
    have worded := (isWorded_ofToken words.begins words.other).1
    simp [kind, isWorded] at worded
  | dialogue speaker text =>
    rw [told_leaf (n := .dialogue speaker text) (by rw [hc]; rfl)] at h
    obtain ⟨here, after⟩ := List.cons.inj h
    obtain ⟨-, rfl, rfl⟩ : Kind.text = .text ∧ speaker = n.speaker ∧ text = n.text := by
      simpa [Node.told, dialogue, ofKind] using here
    exact ⟨rfl, after⟩

/-- The line of a canonical leaf tells of the leaf only. -/
theorem told_canonical (form : n.Canonical) (hc : n.kind ≠ .choicePrompt)
    (hk : n.kind ≠ .conditional) (h : told false (n.line :: rest) = n.told :: more) :
    told false rest = more := by
  have said : (ofString n.line).content = n.lineContent := form.reads 0
  have leaf {l : Node} (hl : n.lineContent.leaf? = some l) : told false rest = more := by
    rw [told_leaf (by rw [said, hl])] at h
    exact (List.cons.inj h).2
  cases form.form with
  | narration kind => exact leaf (by rw [lineContent, kind]; rfl)
  | dialogue kind => exact leaf (by rw [lineContent, kind]; rfl)
  | label kind => exact leaf (by rw [lineContent, kind]; rfl)
  | choice kind => exact absurd kind hc
  | conditional kind => exact absurd kind hk
  | directive kind _ begins other =>
    exact leaf (by rw [(lineContent_directive kind begins other).2]; rfl)

/-- If the lines of a block tell of its nodes, each node is read from its line, and the
lines after the block tell of what is left. -/
def Telling (b : Block) : Prop :=
  ∀ ⦃rest : List String⦄ ⦃more : List (Kind × String × String)⦄, AtMost more.length rest →
    told false (blockLines b ++ rest) = (blockNodes b).map Node.told ++ more →
      (∀ n ∈ blockNodes b, n.IsRead) ∧ told false rest = more

theorem telling_nil : Telling [] := fun _ _ _ h => ⟨fun _ hn => absurd hn List.not_mem_nil, h⟩

/-- A node with nothing in its branches is read from its line. -/
theorem reads_alone (form : n.Canonical ∨ n.Nameless) (hk : n.kind ≠ .conditional)
    (short : AtMost more.length rest) (h : told false (nodeLines n ++ rest) = n.told :: more) :
    n.IsRead ∧ told false rest = more := by
  by_cases hc : n.kind = .choicePrompt
  · have canonical : n.Canonical := form.resolve_right fun h => by simp [h.kind] at hc
    have opens : (ofString n.line).content = .choiceOpen := by
      rw [ofString, canonical.reads 0, lineContent, hc]
    rw [nodeLines_choice hc, List.cons_append, List.cons_append, List.append_assoc,
      told_choiceOpen opens] at h
    refine ⟨canonical.reads 0, ?_⟩
    exact (told_options n.options rest).symm.trans (List.cons.inj h).2
  · rw [nodeLines_leaf hc hk] at h
    rcases form with canonical | nameless
    · exact ⟨canonical.reads 0, told_canonical canonical hc hk h⟩
    · exact reads_nameless nameless short h

/-- A conditional is read from its line, and its branches from theirs. -/
theorem reads_conditional (form : n.Canonical) (hk : n.kind = .conditional)
    (inThen : Telling n.thenBranch) (inElse : Telling n.elseBranch)
    (short : AtMost more.length rest)
    (h : told false (nodeLines n ++ rest) =
      n.told :: ((blockNodes n.thenBranch).map Node.told ++
        ((blockNodes n.elseBranch).map Node.told ++ more))) :
    (n.IsRead ∧ (∀ m ∈ blockNodes n.thenBranch, m.IsRead) ∧
      ∀ m ∈ blockNodes n.elseBranch, m.IsRead) ∧ told false rest = more := by
  let other := (if n.elseBranch.isEmpty then []
    else Terminator.otherwise.token :: blockLines n.elseBranch)
  let closing := Terminator.endIf.token :: rest
  have whole : nodeLines n ++ rest =
      n.line :: (blockLines n.thenBranch ++ (other ++ closing)) := by
    rw [nodeLines_conditional hk]
    simp [other, closing]
  have opens : (ofString n.line).content = .ifOpen n.token n.params := by
    rw [ofString, form.reads 0, lineContent, hk]
  rw [whole, told_ifOpen opens] at h
  have closed : told false closing = told false rest := told_silent (.inr (.inr ⟨.endIf, rfl⟩))
  have atClosing : AtMost more.length closing := short.terminator .endIf
  -- An empty second branch is left out together with its `@else`, which tells of nothing.
  have otherLines : told false (other ++ closing) =
      told false (blockLines n.elseBranch ++ closing) := by
    simp only [other]
    split
    next empty => rw [List.isEmpty_iff.mp empty]; rfl
    next => exact told_silent (.inr (.inr ⟨.otherwise, rfl⟩))
  have atOther : AtMost ((blockNodes n.elseBranch).map Node.told ++ more).length
      (other ++ closing) := by
    have inside := atClosing.blockLines n.elseBranch
    rw [List.length_append, List.length_map, length_blockNodes]
    simp only [other]
    split
    next empty => rwa [List.isEmpty_iff.mp empty] at inside ⊢
    next => exact inside.terminator .otherwise
  obtain ⟨readThen, afterThen⟩ := inThen atOther (List.cons.inj h).2
  obtain ⟨readElse, afterElse⟩ := inElse atClosing (otherLines.symm.trans afterThen)
  exact ⟨⟨form.reads 0, readThen, readElse⟩, closed.symm.trans afterElse⟩

/-- If the lines of a tree tell of its nodes, each node is read from its line. -/
theorem reads_of_told {b : Block} (forms : ∀ n ∈ blockNodes b, n.Canonical ∨ n.Nameless) :
    Telling b := by
  induction b using tree_induction with
  | nil => exact telling_nil
  | cons n ns ihThen ihElse ih =>
    intro rest more short h
    obtain ⟨form, formsThen, formsElse, formsAfter⟩ := forall_blockNodes_cons.mp forms
    let rest' := blockLines ns ++ rest
    let more' := (blockNodes ns).map Node.told ++ more
    have short' : AtMost more'.length rest' := by
      have := short.blockLines ns
      rwa [← length_blockNodes, ← List.length_map Node.told, ← List.length_append] at this
    have here : told false (nodeLines n ++ rest') =
        n.told :: ((blockNodes n.thenBranch).map Node.told ++
          ((blockNodes n.elseBranch).map Node.told ++ more')) := by
      rw [blockLines, blockNodes, nodes_eq] at h
      simpa [rest', more'] using h
    have first : (n.IsRead ∧ (∀ m ∈ blockNodes n.thenBranch, m.IsRead) ∧
        ∀ m ∈ blockNodes n.elseBranch, m.IsRead) ∧ told false rest' = more' := by
      by_cases hk : n.kind = .conditional
      · have canonical : n.Canonical := form.resolve_right fun h => by simp [h.kind] at hk
        exact reads_conditional canonical hk (ihThen formsThen) (ihElse formsElse) short' here
      · have tidy : n.Tidy := form.elim (·.tidy) (·.tidy)
        obtain ⟨noThen, noElse⟩ := tidy.branches hk
        rw [noThen, noElse] at here ⊢
        obtain ⟨read, left⟩ := reads_alone form hk short' here
        exact ⟨⟨read, (telling_nil short' left).1, (telling_nil short' left).1⟩, left⟩
    obtain ⟨⟨read, readThen, readElse⟩, left⟩ := first
    obtain ⟨readAfter, left⟩ := ih formsAfter short left
    exact ⟨forall_blockNodes_cons.mpr ⟨read, readThen, readElse, readAfter⟩, left⟩

/-! ## Dialogue with a blank speaker -/

/-- Dialogue with a blank speaker that is read from its line has no speaker at all and a
text that is read as narration. -/
theorem bare_of_reads (kind : n.kind = .text) (narration : n.isNarration = true)
    (oneLine : '\n' ∉ n.line.toList) (reads : n.IsRead) :
    n.speaker = "" ∧ BareText n.text.toList := by
  have said : n.lineContent = .dialogue n.speaker n.text := by rw [lineContent, kind]
  rw [IsRead, said] at reads
  rw [line_narration kind narration] at oneLine reads
  obtain ⟨plain, split⟩ := (reads ▸ read_wording 0 n.text.toList).plain
  rcases Line.splitDialogue_cases (Text.trim n.text.toList) with
    ⟨noSpeaker, bare⟩ | ⟨speaker, after, whole, -, bracket⟩
  · obtain ⟨speaker, text⟩ := Prod.mk.inj (split.symm.trans bare)
    have trimmed : Text.trim n.text.toList = n.text.toList := by
      rw [text, String.toList_ofList, Text.trim_trim]
    rw [trimmed] at plain noSpeaker
    exact ⟨speaker, plain, trimmed, oneLine, noSpeaker⟩
  · -- The text after a speaker is shorter than the line, which is the text.
    have text := congrArg String.toList (Prod.mk.inj (split.symm.trans bracket)).2
    rw [String.toList_ofList] at text
    have shorter : n.text.toList.length ≤ after.length := by
      rw [text]
      exact ((Line.stripQuotes_isInfix _).trans (Text.trim_isInfix after)).length_le
    have longer : after.length < n.text.toList.length := by
      refine Nat.lt_of_lt_of_le ?_ (Text.trim_isInfix n.text.toList).length_le
      rw [whole]
      simp
      omega
    omega

/-- Such dialogue is canonical. -/
theorem canonical_of_bare (form : n.Canonical ∨ n.Nameless)
    (bare : n.kind = .text → n.isNarration = true → n.speaker = "" ∧ BareText n.text.toList) :
    n.Canonical := by
  rcases form with canonical | nameless
  · exact canonical
  · obtain ⟨speaker, text⟩ := bare nameless.kind nameless.narration
    exact ⟨nameless.tidy, .narration nameless.kind speaker text⟩

theorem line_oneLine (form : n.Canonical ∨ n.Nameless) : '\n' ∉ n.line.toList := by
  rcases form with canonical | nameless
  · exact canonical.line_oneLine
  · rw [line_narration nameless.kind nameless.narration]
    exact nameless.oneLine

theorem options_oneLine (form : n.Canonical ∨ n.Nameless) :
    ∀ o ∈ n.options, '\n' ∉ o.line.toList := by
  rcases form with canonical | nameless
  · exact fun o ho => (canonical.options o ho).line_oneLine
  · simp [nameless.tidy.options (by simp [nameless.kind])]

/-! ## The whole script -/

/-- What is told of the nodes that are read from the text of a tree is what the lines of the
tree tell. -/
theorem map_told_parse_write {b : Block} (oneLine : ∀ l ∈ blockLines b, '\n' ∉ l.toList) :
    (blockNodes (parse (write b).toList)).map Node.told = told false (blockLines b) := by
  have byLine : (blockLines b).foldl Pass.feedLine .start =
      ((blockLines b).map ofString).foldl Pass.feed .start := by
    rw [List.foldl_map]
    rfl
  rw [← filterMap_blockItems, parse_write oneLine, Pass.blockItems_finish, byLine,
    Pass.items_foldl_feed]
  rfl

/-- Formatting a script keeps it exactly if all dialogue with a blank speaker has no speaker
at all and a text that is read as narration. -/
theorem sameBlock_format_iff (source : List Char) :
    sameBlock (parse (write (parse source)).toList) (parse source) = true ↔
      ∀ n ∈ blockNodes (parse source), n.kind = .text → n.isNarration = true →
        n.speaker = "" ∧ BareText n.text.toList := by
  have forms := canonical_or_nameless source
  constructor
  · intro same n hn kind narration
    have oneLine : ∀ l ∈ blockLines (parse source), '\n' ∉ l.toList := by
      refine forall_blockLines (fun t => by cases t <;> decide) _ fun m hm => ?_
      exact ⟨line_oneLine (forms m hm), options_oneLine (forms m hm)⟩
    -- Equal trees tell the same, and what the second tree tells is what the lines tell.
    have told : told false (blockLines (parse source)) =
        (blockNodes (parse source)).map Node.told := by
      rw [← map_told_parse_write oneLine, ← map_told_blockContent, (sameBlock_iff _ _).mp same,
        map_told_blockContent]
    have nothing : AtMost ([] : List (Kind × String × String)).length [] := fun _ => Nat.le_refl 0
    have reads := (reads_of_told forms nothing (by simpa using told)).1
    exact bare_of_reads kind narration (line_oneLine (forms n hn)) (reads n hn)
  · intro bare
    have canonical : ∀ n ∈ blockNodes (parse source), n.Canonical := fun n hn =>
      canonical_of_bare (forms n hn) (bare n hn)
    have numbered : renumber (parse source) = parse source := numbered_ofLines _
    rw [sameBlock_iff, parse_write_canonical canonical, numbered, blockContent_blockContent]

/-- A directive that is said with a blank speaker is carried out once the script is formatted. -/
theorem format_changes_nameless :
    sameBlock (parse (write (parse "[] @wait 5\n".toList)).toList)
      (parse "[] @wait 5\n".toList) = false := by
  decide +kernel

end Script

end VisualNovel
