import VisualNovel.Proofs.Text.Pieces
import VisualNovel.Script.Line

/-!
# The wording of lines

Which rule of `Line.classify` a line falls under is seen at its beginning: it is a
terminator, a choice, a condition or another directive by its first word, a label by its
star, and dialogue if it is nothing else.
-/

namespace VisualNovel.Line

open Text

variable {cs : List Char}

/-- A line starts with a word if it has the word for a prefix. -/
theorem startsWith_iff {word : String} : startsWith word cs = true ↔ word.toList <+: cs :=
  List.isPrefixOf_iff_prefix

/-- A line begins with one of two words only if one of them begins with the other. -/
theorem startsWith_eq_false {word other : String} (h : startsWith word cs = true)
    (hw : ¬word.toList <+: other.toList) (ho : ¬other.toList <+: word.toList) :
    startsWith other cs = false := by
  rw [Bool.eq_false_iff]
  intro hother
  rcases List.prefix_or_prefix_of_prefix (startsWith_iff.mp h) (startsWith_iff.mp hother) with
    hp | hp
  · exact hw hp
  · exact ho hp

/-- A line is no terminator if it starts with none of the three words. -/
theorem terminator?_eq_none_iff :
    terminator? cs = none ↔ startsWith "@endif" cs = false ∧ startsWith "@else" cs = false ∧
      startsWith "@end_choice" cs = false := by
  unfold terminator? Terminator.token
  dsimp only
  cases startsWith "@endif" cs with
  | true => simp
  | false =>
    cases startsWith "@else" cs with
    | true => simp
    | false => cases startsWith "@end_choice" cs <;> simp

/-- Terminators begin with the sign of directives. -/
theorem head?_of_terminator {t : Terminator} (h : terminator? cs = some t) :
    cs.head? = some '@' := by
  cases cs with
  | nil => cases h
  | cons c rest =>
    by_contra hc
    have other (word : String) (hw : '@' :: word.toList.tail = word.toList) :
        startsWith word (c :: rest) = false := by
      unfold startsWith
      rw [← hw, List.isPrefixOf]
      simp only [List.head?_cons, Option.some.injEq] at hc
      simp [Ne.symm hc]
    have none : terminator? (c :: rest) = none :=
      terminator?_eq_none_iff.mpr ⟨other _ rfl, other _ rfl, other _ rfl⟩
    rw [none] at h
    cases h

/-! ## What a line falls under -/

/-- A line that is not blank and begins as no comment, label or directive does. -/
structure Plain (cs : List Char) : Prop where
  nonempty : cs ≠ []
  comment : startsWith "//" cs = false
  label : cs.head? ≠ some '*'
  directive : cs.head? ≠ some '@'

instance : DecidablePred Plain := fun cs =>
  decidable_of_iff
    (cs ≠ [] ∧ startsWith "//" cs = false ∧ cs.head? ≠ some '*' ∧ cs.head? ≠ some '@')
    ⟨fun ⟨h₁, h₂, h₃, h₄⟩ => ⟨h₁, h₂, h₃, h₄⟩, fun ⟨h₁, h₂, h₃, h₄⟩ => ⟨h₁, h₂, h₃, h₄⟩⟩

/-- Such a line is dialogue. -/
theorem Plain.classify (h : Plain cs) :
    classify cs = .dialogue (splitDialogue cs).1 (splitDialogue cs).2 := by
  obtain ⟨nonempty, comment, label, directive⟩ := h
  cases cs with
  | nil => exact absurd rfl nonempty
  | cons c rest =>
    have label : c ≠ '*' := by simpa using label
    have directive : '@' ≠ c := by simpa [eq_comm] using directive
    have other (word : String) (hw : word.toList.head? = some '@') :
        startsWith word (c :: rest) = false := by
      unfold startsWith
      cases hword : word.toList with
      | nil => simp [hword] at hw
      | cons d ds =>
        obtain rfl : d = '@' := by simpa [hword] using hw
        simp [List.isPrefixOf, directive]
    unfold Line.classify terminator?
    rw [if_neg (List.cons_ne_nil _ _), comment, other _ (by decide), other _ (by decide),
      other _ (by decide), other "@choice" (by decide), other "@if" (by decide),
      other "@" (by decide)]
    simp [label]

/-- What the rules say of a line. -/
inductive Wording (cs : List Char) : LineContent → Prop
  | blank (empty : cs = []) : Wording cs .blank
  | comment (begins : startsWith "//" cs = true) : Wording cs .comment
  | terminator {t : Terminator} (begins : terminator? cs = some t) : Wording cs (.terminator t)
  | label {name : List Char} (star : cs = '*' :: name) :
      Wording cs (.label (String.ofList (trim name)))
  | choiceOpen (other : terminator? cs = none) (begins : startsWith "@choice" cs = true) :
      Wording cs .choiceOpen
  | ifOpen (other : terminator? cs = none) (begins : startsWith "@if" cs = true) :
      Wording cs (.ifOpen (splitCommand cs).1 (splitCommand cs).2)
  | directive (other : terminator? cs = none) (notChoice : startsWith "@choice" cs = false)
      (notIf : startsWith "@if" cs = false) (begins : startsWith "@" cs = true) :
      Wording cs (.directive (splitCommand cs).1 (splitCommand cs).2)
  | dialogue (plain : Plain cs) :
      Wording cs (.dialogue (splitDialogue cs).1 (splitDialogue cs).2)

/-- Every line falls under one of them. -/
theorem classify_cases (cs : List Char) : Wording cs (classify cs) := by
  unfold classify
  split
  next h => exact .blank h
  next nonempty =>
    split
    next h => exact .comment h
    next notComment =>
      split
      next t h => exact .terminator h
      next other =>
        split
        next name => exact .label rfl
        next notLabel =>
          split
          next h => exact .choiceOpen other h
          next notChoice =>
            split
            next h => exact .ifOpen other h
            next notIf =>
              split
              next h =>
                exact .directive other (by simpa using notChoice) (by simpa using notIf) h
              next notDirective =>
                refine .dialogue ⟨nonempty, by simpa using notComment, fun star => ?_, fun h => ?_⟩
                · obtain ⟨name, hname⟩ := List.head?_eq_some_iff.mp star
                  exact notLabel name hname
                · obtain ⟨rest, hrest⟩ := List.head?_eq_some_iff.mp h
                  exact notDirective (by rw [hrest]; rfl)

/-- What is dialogue is plain, and split into a speaker and a text. -/
theorem Wording.plain {speaker text : String} (h : Wording cs (.dialogue speaker text)) :
    Plain cs ∧ splitDialogue cs = (speaker, text) := by
  cases h with
  | dialogue plain => exact ⟨plain, rfl⟩

/-! ## Lines of each sort -/

/-- A line behind a star is a label, with the blanks around it left out. -/
theorem classify_star (name : List Char) :
    classify ('*' :: name) = .label (String.ofList (trim name)) := by
  simp [classify, startsWith, terminator?, Terminator.token]

/-- A line that begins with `@` is a terminator, opens a block or is another directive. -/
theorem classify_at (h : startsWith "@" cs = true) :
    classify cs =
      match terminator? cs with
      | some t => .terminator t
      | none =>
        if startsWith "@choice" cs then .choiceOpen
        else if startsWith "@if" cs then .ifOpen (splitCommand cs).1 (splitCommand cs).2
        else .directive (splitCommand cs).1 (splitCommand cs).2 := by
  obtain ⟨rest, rfl⟩ := startsWith_iff.mp h
  show classify ('@' :: rest) = _
  unfold classify
  rw [if_neg (List.cons_ne_nil _ _), if_neg (by simp [startsWith])]
  show _ = match terminator? ('@' :: rest) with | some t => _ | none => _
  cases terminator? ('@' :: rest) with
  | some t => rfl
  | none => simp [startsWith]

/-- A line that starts with a word starts with what the word starts with. -/
theorem startsWith_trans {word other : String} (h : startsWith word cs = true)
    (ho : other.toList <+: word.toList) : startsWith other cs = true :=
  startsWith_iff.mpr (ho.trans (startsWith_iff.mp h))

/-- A line with one of the other words is no terminator. -/
theorem terminator?_eq_none {word : String} (h : startsWith word cs = true)
    (hw : ∀ t : Terminator, ¬word.toList <+: t.token.toList ∧ ¬t.token.toList <+: word.toList) :
    terminator? cs = none :=
  terminator?_eq_none_iff.mpr ⟨startsWith_eq_false h (hw .endIf).1 (hw .endIf).2,
    startsWith_eq_false h (hw .otherwise).1 (hw .otherwise).2,
    startsWith_eq_false h (hw .endChoice).1 (hw .endChoice).2⟩

/-- A line that starts with `@if` is a condition. -/
theorem classify_if (h : startsWith "@if" cs = true) :
    classify cs = .ifOpen (splitCommand cs).1 (splitCommand cs).2 := by
  rw [classify_at (startsWith_trans h (by decide)),
    terminator?_eq_none h (fun t => by cases t <;> decide)]
  show (if startsWith "@choice" cs then _ else if startsWith "@if" cs then _ else _) = _
  rw [startsWith_eq_false h (by decide) (by decide), h]
  rfl

/-- The words that a directive that stands by itself does not begin with. -/
def blockWords : List String := ["@if", "@choice", "@endif", "@else", "@end_choice"]

/-- A line with the sign that starts with none of the words of blocks is a directive. -/
theorem classify_directive (h : startsWith "@" cs = true)
    (hw : ∀ word ∈ blockWords, startsWith word cs = false) :
    classify cs = .directive (splitCommand cs).1 (splitCommand cs).2 := by
  simp only [blockWords, List.forall_mem_cons] at hw
  obtain ⟨notIf, notChoice, notEndIf, notElse, notEndChoice, -⟩ := hw
  rw [classify_at h, terminator?_eq_none_iff.mpr ⟨notEndIf, notElse, notEndChoice⟩]
  simp [notChoice, notIf]

/-! ## Words of a directive -/

/-- A word without blanks stands at the beginning of a line if it does so in its first word. -/
theorem prefix_append_blank {word t : List Char} {b : Char}
    (hword : word.any isBlank = false) (hb : isBlank b = true) (rest : List Char) :
    word <+: t ++ b :: rest ↔ word <+: t := by
  induction t generalizing word with
  | nil =>
    cases word with
    | nil => simp
    | cons c word =>
      have : c ≠ b := fun h => by simp [h, hb] at hword
      simp [this]
  | cons d t ih =>
    cases word with
    | nil => simp
    | cons c word =>
      have others : word.any isBlank = false := (Bool.or_eq_false_iff.mp hword).2
      rw [List.cons_append, List.cons_prefix_cons, List.cons_prefix_cons, ih others]

/-- Which word a line of words starts with is seen at the first of them. -/
theorem startsWith_intercalate {word : String} (hw : word.toList.any isBlank = false)
    (t : List Char) (ps : List (List Char)) :
    startsWith word ([' '].intercalate (t :: ps)) = startsWith word t := by
  rw [Bool.eq_iff_iff, startsWith_iff, startsWith_iff]
  cases ps with
  | nil => rw [List.intercalate_singleton]
  | cons p ps =>
    rw [List.intercalate_cons_cons, List.append_assoc, List.singleton_append,
      prefix_append_blank hw (by decide)]

/-- Words that are joined by blanks come apart again. -/
theorem splitCommand_intercalate {t : List Char} {ps : List (List Char)}
    (h : ∀ w ∈ t :: ps, IsWord w) :
    splitCommand ([' '].intercalate (t :: ps)) = (String.ofList t, ps.map String.ofList) := by
  unfold splitCommand
  rw [trim_intercalate h, words_intercalate h]

/-- A prefix that passes a test is a prefix of what passes it. -/
theorem prefix_takeWhile {p : Char → Bool} {word : List Char} (hw : ∀ c ∈ word, p c = true) :
    word <+: cs.takeWhile p ↔ word <+: cs := by
  refine ⟨fun h => h.trans (List.takeWhile_prefix p), ?_⟩
  rintro ⟨rest, rfl⟩
  rw [List.takeWhile_append_of_pos hw]
  exact List.prefix_append _ _

/-- The word of a directive is the beginning of its line, and all that is split off are words. -/
theorem splitCommand_words (trimmed : trim cs = cs) (begins : startsWith "@" cs = true) :
    IsWord (splitCommand cs).1.toList ∧ (∀ p ∈ (splitCommand cs).2, IsWord p.toList) ∧
      ∀ word : String, word.toList.any isBlank = false →
        startsWith word (splitCommand cs).1.toList = startsWith word cs := by
  obtain ⟨rest, rfl⟩ := startsWith_iff.mp begins
  have apart : words ('@' :: rest) = ('@' :: rest).takeWhile (!isBlank ·) ::
      words (('@' :: rest).dropWhile (!isBlank ·)) :=
    words_of_not_blank (by simp) (by simp; decide)
  have all : ∀ w ∈ words ('@' :: rest), IsWord w := fun w => isWord_of_mem_words
  rw [apart, List.forall_mem_cons] at all
  have split : splitCommand ('@' :: rest) =
      (String.ofList (('@' :: rest).takeWhile (!isBlank ·)),
        (words (('@' :: rest).dropWhile (!isBlank ·))).map String.ofList) := by
    unfold splitCommand
    rw [show trim ('@' :: rest) = '@' :: rest from trimmed, apart]
  show IsWord (splitCommand ('@' :: rest)).1.toList ∧ _
  rw [show "@".toList ++ rest = '@' :: rest from rfl, split]
  refine ⟨by simpa using all.1, by simpa using all.2, fun word hw => ?_⟩
  rw [Bool.eq_iff_iff, startsWith_iff, startsWith_iff, String.toList_ofList]
  exact prefix_takeWhile (by simpa using hw)

/-! ## Dialogue and options -/

/-- The quotes around a text are taken off, also if there are some in it. -/
theorem stripQuotes_quoted (text : List Char) : stripQuotes ('"' :: (text ++ ['"'])) = text := by
  simp [stripQuotes]

/-- Taking off quotes leaves a part of the text. -/
theorem stripQuotes_isInfix (cs : List Char) : stripQuotes cs <:+: cs := by
  unfold stripQuotes
  split
  next rest =>
    split
    next => exact ((List.dropLast_prefix rest).isInfix).trans (List.infix_cons List.infix_rfl)
    next => exact List.infix_rfl
  next => exact List.infix_rfl

/-- Without a closed bracket at its beginning the line is all text. -/
theorem splitDialogue_bare (h : cs.head? = some '[' → ']' ∉ cs) :
    splitDialogue cs = ("", String.ofList cs) := by
  unfold splitDialogue
  split
  next rest => exact if_neg (List.not_mem_of_not_mem_cons (h rfl))
  next => rfl

/-- A speaker is read up to the first closing bracket. -/
theorem splitDialogue_bracket {speaker : List Char} (h : ']' ∉ speaker) (rest : List Char) :
    splitDialogue ('[' :: (speaker ++ ']' :: rest)) =
      (String.ofList speaker, String.ofList (stripQuotes (trim rest))) := by
  have inside : ∀ c ∈ speaker, (decide (c ≠ ']')) = true := fun c hc => by
    simp only [decide_eq_true_eq]
    rintro rfl
    exact h hc
  have closes : ']' ∈ speaker ++ ']' :: rest := by simp
  refine (if_pos closes).trans ?_
  rw [List.takeWhile_append_of_pos inside, List.dropWhile_append_of_pos inside]
  simp

/-- Dialogue is bare text, or a speaker in brackets and text after it. -/
theorem splitDialogue_cases (cs : List Char) :
    ((cs.head? = some '[' → ']' ∉ cs) ∧ splitDialogue cs = ("", String.ofList cs)) ∨
      ∃ speaker rest, cs = '[' :: (speaker ++ ']' :: rest) ∧ ']' ∉ speaker ∧
        splitDialogue cs =
          (String.ofList speaker, String.ofList (stripQuotes (trim rest))) := by
  by_cases h : cs.head? = some '[' → ']' ∉ cs
  · exact .inl ⟨h, splitDialogue_bare h⟩
  · obtain ⟨opens, closes⟩ := Classical.not_imp.mp h
    obtain ⟨inside, rfl⟩ := List.head?_eq_some_iff.mp opens
    have closes : ']' ∈ inside := by simpa using closes
    obtain ⟨speaker, rest, rfl, first⟩ := List.eq_append_cons_of_mem closes
    exact .inr ⟨speaker, rest, rfl, first, splitDialogue_bracket first rest⟩

/-- Quoted text, arrows and a target are read as an option. -/
theorem splitArm_quoted {text : List Char} (h : ¬['>', '>'] <:+: text) (rest : List Char) :
    splitArm ('"' :: (text ++ '"' :: ' ' :: '>' :: '>' :: rest)) =
      some ⟨String.ofList text, String.ofList (trim rest)⟩ := by
  have quote : '"' ≠ '>' := by decide
  have nothing : ¬['>', '>'] <:+: ([] : List Char) := by simp
  have before : ¬['>', '>'] <:+: '"' :: (text ++ ['"', ' ']) :=
    not_arrows_append quote nothing (not_arrows_append quote h (by decide))
  have last : ('"' :: (text ++ ['"', ' '])).getLast? ≠ some '>' := by
    simp [List.getLast?_cons, List.getLast?_append]
  have arrows := splitAtArrows_append before last rest
  have shape : '"' :: (text ++ ['"', ' ']) ++ '>' :: '>' :: rest =
      '"' :: (text ++ '"' :: ' ' :: '>' :: '>' :: rest) := by simp
  have quoted : trim ('"' :: (text ++ ['"', ' '])) = '"' :: (text ++ ['"']) := by
    have blank : trim ('"' :: (text ++ ['"']) ++ [' ']) = trim ('"' :: (text ++ ['"'])) :=
      trim_concat_blank (by decide) (by simp; decide)
    rw [trim_append_concat (by decide) (by decide)] at blank
    rw [← blank]
    simp
  rw [splitArm, ← shape, arrows, Option.map_some]
  show some (⟨String.ofList (stripQuotes (trim _)), _⟩ : ChoiceOption) = _
  rw [quoted, stripQuotes_quoted]

end VisualNovel.Line
