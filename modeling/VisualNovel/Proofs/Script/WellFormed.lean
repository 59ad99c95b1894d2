import VisualNovel.Proofs.Script.Numbering
import VisualNovel.Proofs.Script.Parsed

/-!
# Trees that are read are well formed

Whoever is handed a tree that was read from a text relies on what its nodes are like: that a
node holds branches or options only if its kind has them, that the words of a directive are
words and its first word decides its kind, that no string ends the line it is written in.
`Node.WellFormed` says so:

> `wellFormed_of_form`: a node that is canonical, or dialogue with a blank speaker, is well
> formed if its speaker is on one line.

> `wellFormed_parse`: every node of a script is well formed, at every depth, and has its place
> in its block for a number.

That the speaker is on one line has to be shown of all lines again (`speaker_oneLine`): of a
blank speaker `canonical_or_nameless` says nothing more.
-/

namespace VisualNovel

open Text

namespace Node

/-- The strings of a node, those of its options included. -/
def strings (n : Node) : List String :=
  n.speaker :: n.text :: n.label :: n.token ::
    (n.params ++ n.options.flatMap fun o => [o.text, o.target])

/-- What every node is like that was read. -/
structure WellFormed (n : Node) : Prop where
  token : n.token ≠ ""
  kind : n.kind ≠ .choiceEnd
  branches : n.kind ≠ .conditional → n.thenBranch = [] ∧ n.elseBranch = []
  options : n.kind ≠ .choicePrompt → n.options = []
  begins : n.kind ≠ .text → n.kind ≠ .label → Line.startsWith "@" n.token.toList = true
  /-- The word of a directive opens or ends no block, and decides the kind. -/
  word : n.kind ≠ .text → n.kind ≠ .label → n.kind ≠ .conditional → n.kind ≠ .choicePrompt →
    (∀ w ∈ Line.blockWords, Line.startsWith w n.token.toList = false) ∧
      Kind.ofToken n.token = n.kind
  params : ∀ p ∈ n.params, IsWord p.toList
  label : trim n.label.toList = n.label.toList
  speaker : ']' ∉ n.speaker.toList
  arms : ∀ o ∈ n.options,
    ¬['>', '>'] <:+: o.text.toList ∧ trim o.target.toList = o.target.toList
  oneLine : ∀ s ∈ n.strings, '\n' ∉ s.toList

variable {n : Node}

/-! ## From the wording to the fields -/

theorem oneLine_iff : (∀ s ∈ n.strings, '\n' ∉ s.toList) ↔
    '\n' ∉ n.speaker.toList ∧ '\n' ∉ n.text.toList ∧ '\n' ∉ n.label.toList ∧
      '\n' ∉ n.token.toList ∧ (∀ p ∈ n.params, '\n' ∉ p.toList) ∧
      ∀ o ∈ n.options, '\n' ∉ o.text.toList ∧ '\n' ∉ o.target.toList := by
  simp only [strings, List.forall_mem_cons, List.forall_mem_append, List.forall_mem_flatMap]
  simp

/-- The kinds that leave the words of a node to be those of the kind have words, too. -/
theorem Tidy.worded (h : n.Tidy)
    (hk : n.kind = .text ∨ n.kind = .label ∨ n.kind = .choicePrompt) : n.Worded := by
  obtain ⟨token, params⟩ := h.word hk
  refine ⟨?_, by simp [params]⟩
  rw [token]
  rcases hk with hk | hk | hk
  · rw [hk]
    decide
  · rw [hk]
    decide
  · rw [hk]
    decide

/-- The word of a directive makes it neither dialogue nor a label nor the end of a choice. -/
theorem kind_of_directive (kind : n.kind = .ofToken n.token)
    (begins : Line.startsWith "@" n.token.toList = true)
    (other : ∀ w ∈ Line.blockWords, Line.startsWith w n.token.toList = false) :
    n.kind ≠ .text ∧ n.kind ≠ .label ∧ n.kind ≠ .choiceEnd := by
  have worded := (isWorded_ofToken begins other).1
  rw [← kind] at worded
  refine ⟨fun hk => ?_, fun hk => ?_, fun hk => ?_⟩
  · simp [hk, isWorded] at worded
  · simp [hk, isWorded] at worded
  · simp [hk, isWorded] at worded

theorem Canonical.allWorded (h : n.Canonical) : n.Worded := by
  cases h.form with
  | narration kind => exact h.tidy.worded (.inl kind)
  | dialogue kind => exact h.tidy.worded (.inl kind)
  | label kind => exact h.tidy.worded (.inr (.inl kind))
  | choice kind => exact h.tidy.worded (.inr (.inr kind))
  | conditional _ words => exact words
  | directive _ words => exact words

/-- What is neither said nor a label has a word that begins as a directive does, and that
decides the kind if it opens no block. -/
theorem Canonical.word (h : n.Canonical) (notText : n.kind ≠ .text) (notLabel : n.kind ≠ .label) :
    Line.startsWith "@" n.token.toList = true ∧ n.kind ≠ .choiceEnd ∧
      (n.kind ≠ .conditional → n.kind ≠ .choicePrompt →
        (∀ w ∈ Line.blockWords, Line.startsWith w n.token.toList = false) ∧
          Kind.ofToken n.token = n.kind) := by
  cases h.form with
  | narration kind => exact absurd kind notText
  | dialogue kind => exact absurd kind notText
  | label kind => exact absurd kind notLabel
  | choice kind =>
    rw [(h.tidy.word (.inr (.inr kind))).1, kind]
    exact ⟨rfl, by decide, fun _ notChoice => absurd rfl notChoice⟩
  | conditional kind _ begins =>
    rw [kind]
    exact ⟨Line.startsWith_trans begins (by decide), by decide, fun notIf => absurd rfl notIf⟩
  | directive kind _ begins other =>
    exact ⟨begins, (kind_of_directive kind begins other).2.2, fun _ _ => ⟨other, kind.symm⟩⟩

theorem Canonical.label_trimmed (h : n.Canonical) :
    trim n.label.toList = n.label.toList ∧ '\n' ∉ n.label.toList := by
  have unlabelled (hk : n.kind ≠ .label) :
      trim n.label.toList = n.label.toList ∧ '\n' ∉ n.label.toList := by
    rw [h.tidy.label hk]
    exact ⟨rfl, by simp⟩
  cases h.form with
  | label _ trimmed oneLine => exact ⟨trimmed, oneLine⟩
  | narration kind => exact unlabelled (by simp [kind])
  | dialogue kind => exact unlabelled (by simp [kind])
  | choice kind => exact unlabelled (by simp [kind])
  | conditional kind => exact unlabelled (by simp [kind])
  | directive kind _ begins other =>
    exact unlabelled (kind_of_directive kind begins other).2.1

/-- Dialogue is well formed if what it says and who says it are. -/
theorem Tidy.wellFormed_text (h : n.Tidy) (kind : n.kind = .text)
    (bracket : ']' ∉ n.speaker.toList) (speakerLine : '\n' ∉ n.speaker.toList)
    (textLine : '\n' ∉ n.text.toList) : n.WellFormed := by
  have worded := h.worded (.inl kind)
  have noLabel : n.label = "" := h.label (by simp [kind])
  have noOptions : n.options = [] := h.options (by simp [kind])
  exact
    { token := fun empty => worded.token.1 (by rw [empty]; rfl)
      kind := by simp [kind]
      branches := h.branches
      options := h.options
      begins := fun notText => absurd kind notText
      word := fun notText => absurd kind notText
      params := worded.params
      label := by rw [noLabel]; rfl
      speaker := bracket
      arms := by simp [noOptions]
      oneLine := oneLine_iff.mpr ⟨speakerLine, textLine, by simp [noLabel],
        worded.token.not_mem rfl, fun p hp => (worded.params p hp).not_mem rfl,
        by simp [noOptions]⟩ }

/-- What is not said is well formed if it is canonical. -/
theorem Canonical.wellFormed (h : n.Canonical) (notText : n.kind ≠ .text) : n.WellFormed := by
  have worded := h.allWorded
  obtain ⟨speaker, text⟩ := h.tidy.dialogue notText
  obtain ⟨trimmed, labelLine⟩ := h.label_trimmed
  exact
    { token := fun empty => worded.token.1 (by rw [empty]; rfl)
      kind := fun isEnd => (h.word notText (by simp [isEnd])).2.1 isEnd
      branches := h.tidy.branches
      options := h.tidy.options
      begins := fun _ notLabel => (h.word notText notLabel).1
      word := fun _ notLabel => (h.word notText notLabel).2.2
      params := worded.params
      label := trimmed
      speaker := by simp [speaker]
      arms := fun o ho => ⟨(h.options o ho).arrows, (h.options o ho).trimmed⟩
      oneLine := oneLine_iff.mpr ⟨by simp [speaker], by simp [text], labelLine,
        worded.token.not_mem rfl, fun p hp => (worded.params p hp).not_mem rfl,
        fun o ho => ⟨(h.options o ho).textLine, (h.options o ho).targetLine⟩⟩ }

/-- A node that is worded as a line can be is well formed if its speaker is on one line. -/
theorem wellFormed_of_form (form : n.Canonical ∨ n.Nameless)
    (speakerLine : '\n' ∉ n.speaker.toList) : n.WellFormed := by
  rcases form with canonical | nameless
  · cases canonical.form with
    | narration kind speaker bare =>
      exact canonical.tidy.wellFormed_text kind (by simp [speaker]) speakerLine bare.oneLine
    | dialogue kind spoken =>
      exact canonical.tidy.wellFormed_text kind spoken.bracket speakerLine spoken.textLine
    | label kind => exact canonical.wellFormed (by simp [kind])
    | choice kind => exact canonical.wellFormed (by simp [kind])
    | conditional kind => exact canonical.wellFormed (by simp [kind])
    | directive kind _ begins other =>
      exact canonical.wellFormed (kind_of_directive kind begins other).1
  · have blank : ∀ c ∈ n.speaker.toList, isBlank c = true := List.all_eq_true.mp nameless.narration
    exact nameless.tidy.wellFormed_text nameless.kind (fun h => absurd (blank _ h) (by decide))
      speakerLine nameless.oneLine

end Node

namespace Script

open Node

/-- Who says a line of a script is named on one line. -/
theorem speaker_oneLine (source : List Char) :
    ∀ n ∈ blockNodes (parse source), '\n' ∉ n.speaker.toList := by
  let holds (b : Block) : Prop := ∀ n ∈ blockNodes b, '\n' ∉ n.speaker.toList
  have none : holds [] := fun _ h => by cases h
  have concat {b : Block} {n : Node} (hn : '\n' ∉ n.speaker.toList) (ht : holds n.thenBranch)
      (he : holds n.elseBranch) (hb : holds b) : holds (Script.concat b n) :=
    forall_blockNodes_append.mpr ⟨hb, forall_blockNodes_cons.mpr ⟨hn, ht, he, none⟩⟩
  have silent : '\n' ∉ "".toList := by simp
  have inv : Invariant holds (fun _ _ => True) (fun _ => True) :=
    ⟨none, fun _ hb => concat silent none none hb, fun _ ht he hb => concat silent ht he hb⟩
  refine inv.ofLines fun line hline => ⟨fun hn hb => ?_, fun _ => trivial, fun _ => trivial⟩
  obtain ⟨k, text, member, rfl⟩ := Line.mem_readFrom hline
  rcases LineContent.leaf_cases hn with
    ⟨name, -, rfl⟩ | ⟨token, params, -, rfl⟩ | ⟨speaker, text', said, rfl⟩
  · exact concat silent none none hb
  · exact concat silent none none hb
  · have wording := read_wording k text
    rw [said] at wording
    refine concat ?_ none none hb
    have oneLine : '\n' ∉ trim text := fun h =>
      not_mem_of_mem_lines member ((trim_isInfix text).subset h)
    show '\n' ∉ speaker.toList
    rcases Line.splitDialogue_cases (trim text) with ⟨-, split⟩ | ⟨name, rest, whole, -, split⟩
    · obtain ⟨rfl, -⟩ := Prod.mk.inj (wording.plain.2.symm.trans split)
      exact silent
    · obtain ⟨rfl, -⟩ := Prod.mk.inj (wording.plain.2.symm.trans split)
      rw [whole] at oneLine
      simpa using fun h => oneLine (by simp [h])

/-- Every node of a script, at every depth, has its place in its block for a number and is
well formed. -/
theorem wellFormed_parse (source : List Char) :
    Positioned (parse source) ∧ ∀ n ∈ blockNodes (parse source), n.WellFormed := by
  refine ⟨(positioned_iff_numbered _).mpr (numbered_ofLines _), fun n hn => ?_⟩
  exact wellFormed_of_form (canonical_or_nameless source n hn) (speaker_oneLine source n hn)

end Script

end VisualNovel
