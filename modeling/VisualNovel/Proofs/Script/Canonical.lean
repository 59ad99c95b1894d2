import VisualNovel.Proofs.Script.Wording
import VisualNovel.Script.Write

/-!
# Nodes that are read as they are written

A node is canonical if its lines leave nothing out that is in it, and are worded so that
they are read back: no field is filled that has no place in them, and no text holds what
would end it early or make its line one of another kind.

> `Node.Canonical.reads`: the line of a canonical node is read as what the node is.
-/

namespace VisualNovel

open Text

/-- An option whose line is read as the option. -/
structure ChoiceOption.Canonical (o : ChoiceOption) : Prop where
  arrows : ¬['>', '>'] <:+: o.text.toList
  textLine : '\n' ∉ o.text.toList
  trimmed : trim o.target.toList = o.target.toList
  targetLine : '\n' ∉ o.target.toList

namespace Node

/-- No field is filled that the lines of a node of its kind leave out. -/
structure Tidy (n : Node) : Prop where
  dialogue : n.kind ≠ .text → n.speaker = "" ∧ n.text = ""
  label : n.kind ≠ .label → n.label = ""
  options : n.kind ≠ .choicePrompt → n.options = []
  branches : n.kind ≠ .conditional → n.thenBranch = [] ∧ n.elseBranch = []
  word : n.kind = .text ∨ n.kind = .label ∨ n.kind = .choicePrompt →
    n.token = n.kind.token ∧ n.params = []

/-- Text that is read as narration when it stands by itself. -/
structure BareText (text : List Char) : Prop where
  plain : Line.Plain text
  trimmed : trim text = text
  oneLine : '\n' ∉ text
  noSpeaker : text.head? = some '[' → ']' ∉ text

/-- A speaker and a text that are read back from a line with the speaker in brackets. -/
structure Spoken (speaker text : List Char) : Prop where
  named : speaker.all isBlank = false
  bracket : ']' ∉ speaker
  speakerLine : '\n' ∉ speaker
  textLine : '\n' ∉ text

/-- The word of a directive and its parameters are words. -/
structure Worded (n : Node) : Prop where
  token : IsWord n.token.toList
  params : ∀ p ∈ n.params, IsWord p.toList

/-- What the lines of a node do say of it is worded so that it is read back. -/
inductive Form (n : Node) : Prop
  | narration (kind : n.kind = .text) (speaker : n.speaker = "") (bare : BareText n.text.toList)
  | dialogue (kind : n.kind = .text) (spoken : Spoken n.speaker.toList n.text.toList)
  | label (kind : n.kind = .label) (trimmed : trim n.label.toList = n.label.toList)
      (oneLine : '\n' ∉ n.label.toList)
  | choice (kind : n.kind = .choicePrompt) (options : ∀ o ∈ n.options, o.Canonical)
  | conditional (kind : n.kind = .conditional) (words : n.Worded)
      (begins : Line.startsWith "@if" n.token.toList = true)
  /-- The word decides the kind, and is none that opens or ends a block. -/
  | directive (kind : n.kind = .ofToken n.token) (words : n.Worded)
      (begins : Line.startsWith "@" n.token.toList = true)
      (other : ∀ word ∈ Line.blockWords, Line.startsWith word n.token.toList = false)

/-- A node whose lines are read as the node, its branches apart. -/
structure Canonical (n : Node) : Prop where
  tidy : n.Tidy
  form : n.Form

section Decide

instance : DecidablePred ChoiceOption.Canonical := fun o =>
  decidable_of_iff
    (¬['>', '>'] <:+: o.text.toList ∧ '\n' ∉ o.text.toList ∧
      trim o.target.toList = o.target.toList ∧ '\n' ∉ o.target.toList)
    ⟨fun ⟨h₁, h₂, h₃, h₄⟩ => ⟨h₁, h₂, h₃, h₄⟩, fun ⟨h₁, h₂, h₃, h₄⟩ => ⟨h₁, h₂, h₃, h₄⟩⟩

instance : DecidablePred Tidy := fun n =>
  decidable_of_iff
    ((n.kind ≠ .text → n.speaker = "" ∧ n.text = "") ∧ (n.kind ≠ .label → n.label = "") ∧
      (n.kind ≠ .choicePrompt → n.options = []) ∧
      (n.kind ≠ .conditional → n.thenBranch.isEmpty = true ∧ n.elseBranch.isEmpty = true) ∧
      (n.kind = .text ∨ n.kind = .label ∨ n.kind = .choicePrompt →
        n.token = n.kind.token ∧ n.params = []))
    (by
      simp only [List.isEmpty_iff]
      exact ⟨fun ⟨h₁, h₂, h₃, h₄, h₅⟩ => ⟨h₁, h₂, h₃, h₄, h₅⟩,
        fun ⟨h₁, h₂, h₃, h₄, h₅⟩ => ⟨h₁, h₂, h₃, h₄, h₅⟩⟩)

instance : DecidablePred BareText := fun text =>
  decidable_of_iff
    (Line.Plain text ∧ trim text = text ∧ '\n' ∉ text ∧ (text.head? = some '[' → ']' ∉ text))
    ⟨fun ⟨h₁, h₂, h₃, h₄⟩ => ⟨h₁, h₂, h₃, h₄⟩, fun ⟨h₁, h₂, h₃, h₄⟩ => ⟨h₁, h₂, h₃, h₄⟩⟩

instance (speaker text : List Char) : Decidable (Spoken speaker text) :=
  decidable_of_iff
    (speaker.all isBlank = false ∧ ']' ∉ speaker ∧ '\n' ∉ speaker ∧ '\n' ∉ text)
    ⟨fun ⟨h₁, h₂, h₃, h₄⟩ => ⟨h₁, h₂, h₃, h₄⟩, fun ⟨h₁, h₂, h₃, h₄⟩ => ⟨h₁, h₂, h₃, h₄⟩⟩

instance : DecidablePred Worded := fun n =>
  decidable_of_iff (IsWord n.token.toList ∧ ∀ p ∈ n.params, IsWord p.toList)
    ⟨fun ⟨h₁, h₂⟩ => ⟨h₁, h₂⟩, fun ⟨h₁, h₂⟩ => ⟨h₁, h₂⟩⟩

instance : DecidablePred Form := fun n =>
  decidable_of_iff
    (n.kind = .text ∧ n.speaker = "" ∧ BareText n.text.toList ∨
      n.kind = .text ∧ Spoken n.speaker.toList n.text.toList ∨
      n.kind = .label ∧ trim n.label.toList = n.label.toList ∧ '\n' ∉ n.label.toList ∨
      n.kind = .choicePrompt ∧ (∀ o ∈ n.options, o.Canonical) ∨
      n.kind = .conditional ∧ n.Worded ∧ Line.startsWith "@if" n.token.toList = true ∨
      n.kind = .ofToken n.token ∧ n.Worded ∧ Line.startsWith "@" n.token.toList = true ∧
        ∀ word ∈ Line.blockWords, Line.startsWith word n.token.toList = false)
    (by
      constructor
      · rintro (⟨h₁, h₂, h₃⟩ | ⟨h₁, h₂⟩ | ⟨h₁, h₂, h₃⟩ | ⟨h₁, h₂⟩ | ⟨h₁, h₂, h₃⟩ |
          ⟨h₁, h₂, h₃, h₄⟩)
        · exact .narration h₁ h₂ h₃
        · exact .dialogue h₁ h₂
        · exact .label h₁ h₂ h₃
        · exact .choice h₁ h₂
        · exact .conditional h₁ h₂ h₃
        · exact .directive h₁ h₂ h₃ h₄
      · intro form
        cases form with
        | narration h₁ h₂ h₃ => exact .inl ⟨h₁, h₂, h₃⟩
        | dialogue h₁ h₂ => exact .inr (.inl ⟨h₁, h₂⟩)
        | label h₁ h₂ h₃ => exact .inr (.inr (.inl ⟨h₁, h₂, h₃⟩))
        | choice h₁ h₂ => exact .inr (.inr (.inr (.inl ⟨h₁, h₂⟩)))
        | conditional h₁ h₂ h₃ => exact .inr (.inr (.inr (.inr (.inl ⟨h₁, h₂, h₃⟩))))
        | directive h₁ h₂ h₃ h₄ => exact .inr (.inr (.inr (.inr (.inr ⟨h₁, h₂, h₃, h₄⟩)))))

instance : DecidablePred Canonical := fun n =>
  decidable_of_iff (n.Tidy ∧ n.Form) ⟨fun ⟨h₁, h₂⟩ => ⟨h₁, h₂⟩, fun ⟨h₁, h₂⟩ => ⟨h₁, h₂⟩⟩

end Decide

/-- What the first line of a node is to say. -/
def lineContent (n : Node) : LineContent :=
  match n.kind with
  | .text => .dialogue n.speaker n.text
  | .label => .label n.label
  | .choicePrompt => .choiceOpen
  | .conditional => .ifOpen n.token n.params
  | _ => .directive n.token n.params

variable {n : Node}

/-! ## Directives -/

/-- The kinds whose line is the word of the node and its parameters. -/
def isWorded : Kind → Bool
  | .text | .label | .choicePrompt | .choiceEnd => false
  | _ => true

/-- The line of a directive is its words, joined. -/
theorem line_of_isWorded (hk : isWorded n.kind = true)
    (begins : Line.startsWith "@" n.token.toList = true) :
    n.line.toList = [' '].intercalate (n.token.toList :: n.params.map String.toList) := by
  have directive : n.isDirective = true := by
    obtain ⟨rest, hrest⟩ := Line.startsWith_iff.mp begins
    unfold isDirective
    rw [← hrest]
    rfl
  have line : n.line = String.intercalate " " (n.token :: n.params) := by
    unfold Node.line
    cases hkind : n.kind with
    | text => simp [hkind, isWorded] at hk
    | label => simp [hkind, isWorded] at hk
    | choicePrompt => simp [hkind, isWorded] at hk
    | choiceEnd => simp [hkind, isWorded] at hk
    | _ => exact if_pos directive
  rw [line, String.toList_intercalate]
  rfl

/-- The word and the parameters of a worded node are all words. -/
theorem Worded.words (h : n.Worded) :
    ∀ w ∈ n.token.toList :: n.params.map String.toList, IsWord w := by
  simpa using ⟨h.token, h.params⟩

/-- The words of a directive line come apart again. -/
theorem Worded.splitCommand (h : n.Worded) :
    Line.splitCommand ([' '].intercalate (n.token.toList :: n.params.map String.toList)) =
      (n.token, n.params) := by
  rw [Line.splitCommand_intercalate h.words]
  simp [Function.comp_def]

/-- The word of a known kind is its own. -/
theorem token_of_ofToken {word : String} (h : Kind.ofToken word ≠ .unknown) :
    (Kind.ofToken word).token = word := by
  unfold Kind.ofToken at h ⊢
  cases hf : Kind.all.find? fun k => k.token == word with
  | none => simp [hf] at h
  | some k => simpa using List.find?_some hf

/-- A directive that opens and ends no block is of a kind of its own. -/
theorem isWorded_ofToken {word : String} (begins : Line.startsWith "@" word.toList = true)
    (other : ∀ w ∈ Line.blockWords, Line.startsWith w word.toList = false) :
    isWorded (.ofToken word) = true ∧ Kind.ofToken word ≠ .conditional := by
  have known {k : Kind} (hk : Kind.ofToken word = k) (hu : k ≠ .unknown) : word = k.token := by
    rw [← hk]
    exact (token_of_ofToken (by rwa [hk])).symm
  have free {w : String} (hw : w ∈ Line.blockWords) (h : word = w) : False := by
    have := other w hw
    rw [h, Bool.eq_false_iff] at this
    exact this (Line.startsWith_iff.mpr List.prefix_rfl)
  cases hk : Kind.ofToken word with
  | text =>
    rw [known hk (by decide)] at begins
    exact absurd begins (by decide)
  | label =>
    rw [known hk (by decide)] at begins
    exact absurd begins (by decide)
  | choicePrompt => exact (free (by decide) (known hk (by decide))).elim
  | choiceEnd => exact (free (by decide) (known hk (by decide))).elim
  | conditional => exact (free (by decide) (known hk (by decide))).elim
  | _ => exact ⟨rfl, by decide⟩

/-- A node whose word is that of a directive is written by its word and read as the directive. -/
theorem lineContent_directive (kind : n.kind = .ofToken n.token)
    (begins : Line.startsWith "@" n.token.toList = true)
    (other : ∀ word ∈ Line.blockWords, Line.startsWith word n.token.toList = false) :
    isWorded n.kind = true ∧ n.lineContent = .directive n.token n.params := by
  obtain ⟨worded, notIf⟩ := isWorded_ofToken begins other
  rw [← kind] at worded notIf
  refine ⟨worded, ?_⟩
  unfold lineContent
  cases hk : n.kind with
  | text => simp [hk, isWorded] at worded
  | label => simp [hk, isWorded] at worded
  | choicePrompt => simp [hk, isWorded] at worded
  | conditional => exact absurd hk notIf
  | _ => rfl

/-- A canonical node with a word is worded. -/
theorem Canonical.worded (h : n.Canonical) (hk : isWorded n.kind = true) : n.Worded := by
  cases h.form with
  | narration kind => simp [kind, isWorded] at hk
  | dialogue kind => simp [kind, isWorded] at hk
  | label kind => simp [kind, isWorded] at hk
  | choice kind => simp [kind, isWorded] at hk
  | conditional _ words => exact words
  | directive _ words => exact words

/-- The options of a canonical node are canonical, wherever they are. -/
theorem Canonical.options (h : n.Canonical) : ∀ o ∈ n.options, o.Canonical := by
  by_cases hk : n.kind = .choicePrompt
  · cases h.form with
    | narration kind => simp [hk] at kind
    | dialogue kind => simp [hk] at kind
    | label kind => simp [hk] at kind
    | choice _ options => exact options
    | conditional kind => simp [hk] at kind
    | directive kind words begins other =>
      have worded := (lineContent_directive kind begins other).1
      simp [hk, isWorded] at worded
  · simp [h.tidy.options hk]

/-! ## Lines that are read back -/

/-- Bare text is read as narration. -/
theorem classify_bare {text : List Char} (h : BareText text) :
    Line.classify (trim text) = .dialogue "" (String.ofList text) := by
  rw [h.trimmed, h.plain.classify, Line.splitDialogue_bare h.noSpeaker]

/-- A speaker in brackets and a text in quotes are read as they are. -/
theorem classify_bracket {speaker : List Char} (h : ']' ∉ speaker) (text : List Char) :
    Line.classify (trim ('[' :: (speaker ++ ']' :: ' ' :: '"' :: (text ++ ['"'])))) =
      .dialogue (String.ofList speaker) (String.ofList text) := by
  have trimmed : trim ('[' :: (speaker ++ ']' :: ' ' :: '"' :: (text ++ ['"']))) =
      '[' :: (speaker ++ ']' :: ' ' :: '"' :: (text ++ ['"'])) := by
    have ends := trim_append_concat (c := '[') (d := '"') (by decide) (by decide)
      (speaker ++ ']' :: ' ' :: '"' :: text)
    simpa using ends
  have plain : Line.Plain ('[' :: (speaker ++ ']' :: ' ' :: '"' :: (text ++ ['"']))) :=
    ⟨by simp, rfl, by simp, by simp⟩
  rw [trimmed, plain.classify, Line.splitDialogue_bracket h, trim_cons_blank (by decide),
    trim_append_concat (by decide) (by decide), Line.stripQuotes_quoted]

/-- Narration is written without a speaker. -/
theorem line_narration (kind : n.kind = .text) (h : n.isNarration = true) : n.line = n.text := by
  unfold Node.line
  rw [kind]
  exact if_pos h

/-- Dialogue is written with its speaker in brackets and its text in quotes. -/
theorem line_spoken (kind : n.kind = .text) (h : n.isNarration = false) :
    n.line.toList =
      '[' :: (n.speaker.toList ++ ']' :: ' ' :: '"' :: (n.text.toList ++ ['"'])) := by
  unfold Node.line
  rw [kind]
  simp [h]

/-- A label is written behind a star. -/
theorem line_label (kind : n.kind = .label) : n.line.toList = '*' :: n.label.toList := by
  unfold Node.line
  rw [kind]
  simp

/-- A choice is opened by its word. -/
theorem line_choice (kind : n.kind = .choicePrompt) : n.line = "@choice" := by
  unfold Node.line
  rw [kind]

/-- The line of a canonical node is read as what the node is. -/
theorem Canonical.reads (h : n.Canonical) (k : Nat) :
    (Line.read k n.line.toList).content = n.lineContent := by
  show Line.classify (trim n.line.toList) = n.lineContent
  cases h.form with
  | narration kind speaker bare =>
    rw [line_narration kind (by simp [isNarration, speaker]), classify_bare bare,
      String.ofList_toList, lineContent, kind, speaker]
  | dialogue kind spoken =>
    rw [line_spoken kind spoken.named, classify_bracket spoken.bracket, String.ofList_toList,
      String.ofList_toList, lineContent, kind]
  | label kind trimmed oneLine =>
    rw [line_label kind, trim_cons (by decide) trimmed, Line.classify_star, trimmed,
      String.ofList_toList, lineContent, kind]
  | choice kind options =>
    rw [line_choice kind, lineContent, kind]
    show Line.classify (trim "@choice".toList) = .choiceOpen
    decide
  | conditional kind words begins =>
    have starts : Line.startsWith "@if" _ = _ :=
      Line.startsWith_intercalate (by decide) n.token.toList (n.params.map String.toList)
    rw [line_of_isWorded (by rw [kind]; rfl) (Line.startsWith_trans begins (by decide)),
      trim_intercalate words.words, Line.classify_if (starts.trans begins), words.splitCommand,
      lineContent, kind]
  | directive kind words begins other =>
    obtain ⟨worded, content⟩ := lineContent_directive kind begins other
    have starts (word : String) (hw : word.toList.any isBlank = false) :=
      Line.startsWith_intercalate hw n.token.toList (n.params.map String.toList)
    -- A word of a block is looked for in the whole line, but ends before the first blank.
    have unmarked : ∀ word ∈ Line.blockWords, word.toList.any isBlank = false := by decide
    rw [line_of_isWorded worded begins, trim_intercalate words.words,
      Line.classify_directive ((starts "@" (by decide)).trans begins)
        (fun word hw => (starts word (unmarked word hw)).trans (other word hw)),
      words.splitCommand, content]

/-- The line of a canonical node is one line. -/
theorem Canonical.line_oneLine (h : n.Canonical) : '\n' ∉ n.line.toList := by
  have words (hw : n.Worded) :
      '\n' ∉ [' '].intercalate (n.token.toList :: n.params.map String.toList) :=
    not_mem_intercalate (by decide) (by decide) hw.words
  cases h.form with
  | narration kind speaker bare =>
    rw [line_narration kind (by simp [isNarration, speaker])]
    exact bare.oneLine
  | dialogue kind spoken =>
    rw [line_spoken kind spoken.named]
    simp [spoken.speakerLine, spoken.textLine]
  | label kind trimmed oneLine =>
    rw [line_label kind]
    simp [oneLine]
  | choice kind options =>
    rw [line_choice kind]
    decide
  | conditional kind hw begins =>
    rw [line_of_isWorded (by rw [kind]; rfl) (Line.startsWith_trans begins (by decide))]
    exact words hw
  | directive kind hw begins other =>
    rw [line_of_isWorded (lineContent_directive kind begins other).1 begins]
    exact words hw

end Node

namespace ChoiceOption

variable (o : ChoiceOption)

/-- An option is written in quotes, with its target behind arrows. -/
theorem line_toList :
    o.line.toList =
      '"' :: (o.text.toList ++ '"' :: ' ' :: '>' :: '>' :: ' ' :: o.target.toList) := by
  simp [line]

/-- The line of an option never ends a choice. -/
theorem line_not_terminator (k : Nat) (t : Terminator) :
    (Line.read k o.line.toList).content ≠ .terminator t := by
  show Line.classify (trim o.line.toList) ≠ .terminator t
  intro h
  rw [line_toList, trim_cons_of_not_blank (by decide)] at h
  have wording := h ▸ Line.classify_cases _
  cases wording with
  | terminator begins => cases Line.head?_of_terminator begins

variable {o}

/-- The line of a canonical option is read as the option. -/
theorem Canonical.reads (h : o.Canonical) (k : Nat) :
    Line.splitArm (Line.read k o.line.toList).raw = some o := by
  let front := '"' :: (o.text.toList ++ ['"', ' ', '>'] ++ ['>'])
  have whole : o.line.toList = front ++ ' ' :: o.target.toList := by
    rw [line_toList]
    simp [front]
  have trimmed : trim front = front := trim_append_concat (by decide) (by decide) _
  -- The blank after the arrows is lost if there is no target.
  obtain ⟨rest, raw, target⟩ :
      ∃ rest, trim o.line.toList = front ++ rest ∧ trim rest = o.target.toList := by
    by_cases ht : o.target.toList = []
    · refine ⟨[], ?_, by rw [ht]; rfl⟩
      rw [whole, ht, trim_concat_blank (by decide) (by simp [front]; decide), trimmed,
        List.append_nil]
    · refine ⟨' ' :: o.target.toList, ?_, ?_⟩
      · rw [whole, trim_append trimmed (by simp [front]) h.trimmed ht]
      · rw [trim_cons_blank (by decide), h.trimmed]
  show Line.splitArm (trim o.line.toList) = some o
  have read := Line.splitArm_quoted h.arrows rest
  rw [target, String.ofList_toList, String.ofList_toList] at read
  rw [raw, ← read]
  simp [front]

/-- The line of a canonical option is one line. -/
theorem Canonical.line_oneLine (h : o.Canonical) : '\n' ∉ o.line.toList := by
  rw [line_toList]
  simp [h.textLine, h.targetLine]

end ChoiceOption

end VisualNovel
