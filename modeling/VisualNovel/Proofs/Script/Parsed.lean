import VisualNovel.Proofs.Script.Canonical
import VisualNovel.Proofs.Script.Kept
import VisualNovel.Proofs.Script.Nodes

/-!
# The nodes of a script

What is read from a line is worded as a line can be, so the nodes of a script are canonical
with one exception: a line of dialogue whose speaker is blank may say anything.

> `canonical_or_nameless`: every node of a script, at every depth, is canonical or such a
> line of dialogue.

The words that close a block or switch its branch never become nodes: a line that begins with
one is a terminator, and `not_isStructuralToken_of_read` says that none is read as a directive.
-/

namespace VisualNovel

open Text

namespace Node

/-- Dialogue with a blank speaker, in which no field is filled that dialogue leaves out. -/
structure Nameless (n : Node) : Prop where
  tidy : n.Tidy
  kind : n.kind = .text
  narration : n.isNarration = true
  oneLine : '\n' ∉ n.text.toList

/-! ## Fields that are left out -/

variable {n : Node}

/-- Numbers are no matter. -/
theorem canonical_or_nameless_withSeq (h : n.Canonical ∨ n.Nameless) (seq : Nat) :
    (n.withSeq seq).Canonical ∨ (n.withSeq seq).Nameless := by
  have tidy (h : n.Tidy) : (n.withSeq seq).Tidy :=
    ⟨h.dialogue, h.label, h.options, h.branches, h.word⟩
  rcases h with h | h
  · refine .inl ⟨tidy h.tidy, ?_⟩
    cases h.form with
    | narration h₁ h₂ h₃ => exact .narration h₁ h₂ h₃
    | dialogue h₁ h₂ => exact .dialogue h₁ h₂
    | label h₁ h₂ h₃ => exact .label h₁ h₂ h₃
    | choice h₁ h₂ => exact .choice h₁ h₂
    | conditional h₁ h₂ h₃ => exact .conditional h₁ ⟨h₂.token, h₂.params⟩ h₃
    | directive h₁ h₂ h₃ h₄ => exact .directive h₁ ⟨h₂.token, h₂.params⟩ h₃ h₄
  · exact .inr ⟨tidy h.tidy, h.kind, h.narration, h.oneLine⟩

/-- A line of dialogue fills the fields of dialogue only. -/
theorem tidy_dialogue (speaker text : String) : (dialogue speaker text).Tidy := by
  constructor <;> simp [dialogue, ofKind]

/-- A label fills its own field only. -/
theorem tidy_ofLabel (name : String) : (ofLabel name).Tidy := by
  constructor <;> simp [ofLabel, ofKind]

/-- A choice fills its options only. -/
theorem tidy_choice (options : List ChoiceOption) : (choice options).Tidy := by
  constructor <;> simp [choice, ofKind]

/-- A conditional fills its word, its parameters and its branches only. -/
theorem tidy_conditional (token : String) (params : List String) (t e : Block) :
    ((conditional params t e).withToken token).Tidy := by
  constructor <;> simp [conditional, withToken, ofKind]

/-- A directive whose kind is written by its word fills its word and its parameters only. -/
theorem tidy_directive {word : String} (h : isWorded (.ofToken word) = true)
    (params : List String) : (directive word params).Tidy := by
  have kind : (directive word params).kind = .ofToken word := rfl
  refine ⟨fun _ => ⟨rfl, rfl⟩, fun _ => rfl, fun _ => rfl, fun _ => ⟨rfl, rfl⟩, fun hk => ?_⟩
  rw [kind] at hk
  rcases hk with hk | hk | hk
  · simp [hk, isWorded] at h
  · simp [hk, isWorded] at h
  · simp [hk, isWorded] at h

/-! ## What lines are read as -/

variable {cs : List Char}

/-- A label that was read is trimmed and on one line. -/
theorem canonical_label (h : '\n' ∉ cs) {name : List Char} (star : cs = '*' :: name) :
    (ofLabel (String.ofList (trim name))).Canonical := by
  refine ⟨tidy_ofLabel _, .label rfl ?_ ?_⟩
  · simp [ofLabel]
  · have inside : trim name ⊆ cs := by
      rw [star]
      exact fun c hc => List.mem_cons_of_mem _ ((trim_isInfix name).subset hc)
    simpa [ofLabel] using fun hn => h (inside hn)

/-- The word of a directive line and its parameters are words, and the first is none that
opens or ends a block. -/
structure DirectiveWords (word : String) (params : List String) : Prop where
  isWord : IsWord word.toList
  areWords : ∀ p ∈ params, IsWord p.toList
  begins : Line.startsWith "@" word.toList = true
  other : ∀ w ∈ Line.blockWords, Line.startsWith w word.toList = false

/-- A command that neither opens nor ends a block is split into the words of a directive. -/
theorem directiveWords (trimmed : trim cs = cs) (other : Line.terminator? cs = none)
    (notChoice : Line.startsWith "@choice" cs = false) (notIf : Line.startsWith "@if" cs = false)
    (begins : Line.startsWith "@" cs = true) :
    DirectiveWords (Line.splitCommand cs).1 (Line.splitCommand cs).2 := by
  obtain ⟨notEndIf, notElse, notEndChoice⟩ := Line.terminator?_eq_none_iff.mp other
  obtain ⟨word, params, starts⟩ := Line.splitCommand_words trimmed begins
  refine ⟨word, params, (starts "@" (by decide)).trans begins, ?_⟩
  simp only [Line.blockWords, List.forall_mem_cons]
  rw [starts "@if" (by decide), starts "@choice" (by decide), starts "@endif" (by decide),
    starts "@else" (by decide), starts "@end_choice" (by decide)]
  exact ⟨notIf, notChoice, notEndIf, notElse, notEndChoice, by simp⟩

/-- A node with the words of a directive is canonical. -/
theorem DirectiveWords.canonical {word : String} {params : List String}
    (h : DirectiveWords word params) : (directive word params).Canonical := by
  have nonempty : word ≠ "" := fun hw => h.isWord.1 (by rw [hw]; rfl)
  have same : (directive word params).token = word := by
    simp [directive, withToken, withParams, nonempty]
  refine ⟨tidy_directive (isWorded_ofToken h.begins h.other).1 params, .directive ?_ ⟨?_, ?_⟩ ?_ ?_⟩
  · rw [same]
    rfl
  · rw [same]
    exact h.isWord
  · exact h.areWords
  · rw [same]
    exact h.begins
  · rw [same]
    exact h.other

/-- A plain line is read as narration, as dialogue with a speaker, or with a blank one. -/
theorem dialogue_of_plain (trimmed : trim cs = cs) (oneLine : '\n' ∉ cs) (plain : Line.Plain cs) :
    (dialogue (Line.splitDialogue cs).1 (Line.splitDialogue cs).2).Canonical ∨
      (dialogue (Line.splitDialogue cs).1 (Line.splitDialogue cs).2).Nameless := by
  rcases Line.splitDialogue_cases cs with ⟨noSpeaker, split⟩ | ⟨speaker, rest, whole, first, split⟩
  · have bare : BareText cs := ⟨plain, trimmed, oneLine, noSpeaker⟩
    rw [split]
    exact .inl ⟨tidy_dialogue _ _, .narration rfl rfl (by simpa [dialogue] using bare)⟩
  · rw [split]
    rw [whole] at oneLine
    have speakerLine : '\n' ∉ speaker := fun h => oneLine (by simp [h])
    have textLine : '\n' ∉ Line.stripQuotes (trim rest) := fun h =>
      oneLine (by simp [(trim_isInfix rest).subset ((Line.stripQuotes_isInfix _).subset h)])
    cases hn : speaker.all isBlank with
    | true =>
      exact .inr ⟨tidy_dialogue _ _, rfl, by simpa [isNarration, dialogue] using hn,
        by simpa [dialogue] using textLine⟩
    | false =>
      have spoken : Spoken speaker (Line.stripQuotes (trim rest)) :=
        ⟨hn, first, speakerLine, textLine⟩
      exact .inl ⟨tidy_dialogue _ _, .dialogue rfl (by simpa [dialogue] using spoken)⟩

/-- An option that was read holds no arrows before its own. -/
theorem canonical_option {o : ChoiceOption} (oneLine : '\n' ∉ cs)
    (h : Line.splitArm cs = some o) : o.Canonical := by
  obtain ⟨⟨before, after⟩, split, rfl⟩ := Option.map_eq_some_iff.mp h
  obtain ⟨whole, arrows⟩ := splitAtArrows_eq_some split
  rw [whole] at oneLine
  have inText : Line.stripQuotes (trim before) <:+: before :=
    (Line.stripQuotes_isInfix _).trans (trim_isInfix before)
  refine ⟨?_, ?_, ?_, ?_⟩
  · simpa using fun h => arrows (h.trans inText)
  · simpa using fun h => oneLine (by simp [inText.subset h])
  · simp
  · simpa using fun h => oneLine (by simp [(trim_isInfix after).subset h])

/-- A conditional that was read begins with `@if`, whatever its branches are. -/
theorem canonical_conditional {token : String} {params : List String}
    (words : IsWord token.toList ∧ ∀ p ∈ params, IsWord p.toList)
    (begins : Line.startsWith "@if" token.toList = true) (t e : Block) :
    ((conditional params t e).withToken token).Canonical := by
  have nonempty : token ≠ "" := fun h => words.1.1 (by rw [h]; rfl)
  have same : ((conditional params t e).withToken token).token = token := by
    simp [withToken, nonempty]
  refine ⟨tidy_conditional _ _ _ _, .conditional rfl ⟨?_, words.2⟩ ?_⟩
  · rw [same]
    exact words.1
  · rwa [same]

theorem canonical_choice {options : List ChoiceOption} (h : ∀ o ∈ options, o.Canonical) :
    (choice options).Canonical :=
  ⟨tidy_choice _, .choice rfl h⟩

theorem read_wording (k : Nat) (text : List Char) :
    Line.Wording (trim text) (Line.read k text).content :=
  Line.classify_cases (trim text)

/-- A directive line has the words of one. -/
theorem directiveWords_of_read {text : List Char} {k : Nat} {word : String} {params : List String}
    (h : (Line.read k text).content = .directive word params) : DirectiveWords word params := by
  have wording := read_wording k text
  rw [h] at wording
  cases wording with
  | directive other notChoice notIf begins =>
    exact directiveWords (trim_trim text) other notChoice notIf begins

/-- The structural words are the words of the terminators. -/
theorem isStructuralToken_iff {word : String} :
    isStructuralToken word = true ↔ ∃ t : Terminator, word = t.token := by
  constructor
  · intro h
    simp only [isStructuralToken, Bool.or_eq_true, beq_iff_eq] at h
    rcases h with (h | h) | h
    · exact ⟨.endIf, h⟩
    · exact ⟨.otherwise, h⟩
    · exact ⟨.endChoice, h⟩
  · rintro ⟨t, rfl⟩
    cases t <;> decide

/-- No line is read as a directive whose word closes a block or switches its branch: a line
that begins with such a word is a terminator. So a block has no such directive to pass over. -/
theorem not_isStructuralToken_of_read {text : List Char} {k : Nat} {word : String}
    {params : List String} (h : (Line.read k text).content = .directive word params) :
    isStructuralToken word = false := by
  refine Bool.eq_false_iff.mpr fun structural => ?_
  obtain ⟨t, rfl⟩ := isStructuralToken_iff.mp structural
  have among : t.token ∈ Line.blockWords := by cases t <;> decide
  have begins : Line.startsWith t.token t.token.toList = true := by cases t <;> decide
  exact Bool.false_ne_true (((directiveWords_of_read h).other t.token among).symm.trans begins)

/-- A node that is a line by itself is canonical or nameless, and has no branches. -/
theorem leaf_of_read {text : List Char} (oneLine : '\n' ∉ text) {k : Nat}
    (h : (Line.read k text).content.leaf? = some n) :
    (n.Canonical ∨ n.Nameless) ∧ n.thenBranch = [] ∧ n.elseBranch = [] := by
  have oneLine : '\n' ∉ trim text := fun h => oneLine ((trim_isInfix text).subset h)
  have wording := read_wording k text
  rcases LineContent.leaf_cases h with
    ⟨name, hc, rfl⟩ | ⟨token, params, hc, rfl⟩ | ⟨speaker, text', hc, rfl⟩
  · rw [hc] at wording
    cases wording with
    | label star => exact ⟨.inl (canonical_label oneLine star), rfl, rfl⟩
  · exact ⟨.inl (directiveWords_of_read hc).canonical, rfl, rfl⟩
  · rw [hc] at wording
    cases wording with
    | dialogue plain => exact ⟨dialogue_of_plain (trim_trim _) oneLine plain, rfl, rfl⟩

/-- The word and the parameters of a condition are words. -/
theorem words_of_read {text : List Char} {k : Nat} {token : String} {params : List String}
    (h : (Line.read k text).content = .ifOpen token params) :
    (IsWord token.toList ∧ ∀ p ∈ params, IsWord p.toList) ∧
      Line.startsWith "@if" token.toList = true := by
  have wording := read_wording k text
  rw [h] at wording
  cases wording with
  | ifOpen other begins =>
    obtain ⟨word, ps, starts⟩ := Line.splitCommand_words (trim_trim text)
      (Line.startsWith_trans begins (by decide))
    exact ⟨⟨word, ps⟩, (starts "@if" (by decide)).trans begins⟩

end Node

/-- Every line that was read is one of the texts. -/
theorem Line.mem_readFrom {start : Nat} {texts : List (List Char)} {line : Line}
    (h : line ∈ readFrom start texts) : ∃ k, ∃ text ∈ texts, line = read k text := by
  induction texts generalizing start with
  | nil => cases h
  | cons t ts ih =>
    rcases List.mem_cons.mp h with rfl | h
    · exact ⟨start, t, List.mem_cons_self, rfl⟩
    · obtain ⟨k, text, hmem, heq⟩ := ih h
      exact ⟨k, text, List.mem_cons_of_mem _ hmem, heq⟩

namespace Script

open Node

/-- Every node of a script is canonical, or a line of dialogue with a blank speaker. -/
theorem canonical_or_nameless (source : List Char) :
    ∀ n ∈ blockNodes (parse source), n.Canonical ∨ n.Nameless := by
  let holds (b : Block) : Prop := ∀ n ∈ blockNodes b, n.Canonical ∨ n.Nameless
  have concat {b : Block} {n : Node} (hn : n.Canonical ∨ n.Nameless) (ht : holds n.thenBranch)
      (he : holds n.elseBranch) (hb : holds b) : holds (Script.concat b n) :=
    forall_blockNodes_append.mpr ⟨hb, forall_blockNodes_cons.mpr
      ⟨canonical_or_nameless_withSeq hn _, ht, he, fun _ h => by cases h⟩⟩
  have none : holds [] := fun _ h => by cases h
  -- A choice and a condition are given their options and words lines before they are nodes.
  have inv : Invariant holds
      (fun token params => (IsWord token.toList ∧ ∀ p ∈ params, IsWord p.toList) ∧
        Line.startsWith "@if" token.toList = true) ChoiceOption.Canonical := by
    refine ⟨none, fun ho hb => ?_, fun hw ht he hb => ?_⟩
    · exact concat (.inl (canonical_choice ho)) none none hb
    · exact concat (.inl (canonical_conditional hw.1 hw.2 _ _)) ht he hb
  refine inv.ofLines fun line hline => ?_
  obtain ⟨k, text, member, rfl⟩ := Line.mem_readFrom hline
  have oneLine := not_mem_of_mem_lines member
  refine ⟨fun hn hb => ?_, words_of_read, canonical_option ?_⟩
  · obtain ⟨form, noThen, noElse⟩ := leaf_of_read oneLine hn
    exact concat form (noThen ▸ none) (noElse ▸ none) hb
  · exact fun h => oneLine ((trim_isInfix text).subset h)

end Script

end VisualNovel
