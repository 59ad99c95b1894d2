import VisualNovel.Text.Trim
import Mathlib.Data.List.TakeWhile
import Mathlib.Data.List.Infix

/-!
# Taking text apart and putting it together

What trimming, splitting into lines and words and splitting at arrows leave of a text,
and that each undoes its opposite: text that neither begins nor ends with a blank stays
as it is, and lines and words that were joined come apart again.
-/

namespace VisualNovel.Text

variable {c d : Char} {cs ds : List Char}

/-! ## Trimming -/

/-- Text that is trimmed at its end does not end with a blank. -/
theorem getLast?_trimEnd (cs : List Char) : ∀ c ∈ (trimEnd cs).getLast?, isBlank c = false := by
  induction cs with
  | nil => intro c hc; cases hc
  | cons d cs ih =>
    unfold trimEnd
    cases hr : trimEnd cs with
    | nil =>
      dsimp only
      split
      next => intro c hc; cases hc
      next hd =>
        intro c hc
        cases hc
        simpa using hd
    | cons e r => rwa [hr] at ih

/-- Trimming at the end leaves a beginning. -/
theorem trimEnd_isPrefix (cs : List Char) : trimEnd cs <+: cs := by
  induction cs with
  | nil => exact List.prefix_rfl
  | cons d cs ih =>
    unfold trimEnd
    split
    next =>
      split
      next => exact List.nil_prefix
      next => exact List.prefix_cons_inj d |>.mpr List.nil_prefix
    next => exact List.prefix_cons_inj d |>.mpr ih

/-- Text that does not end with a blank is trimmed at its end. -/
theorem trimEnd_eq_self (h : ∀ c ∈ cs.getLast?, isBlank c = false) : trimEnd cs = cs := by
  induction cs with
  | nil => rfl
  | cons d cs ih =>
    unfold trimEnd
    cases cs with
    | nil =>
      have hd := h d rfl
      simp [trimEnd, hd]
    | cons e cs =>
      rw [List.getLast?_cons_cons] at h
      rw [ih h]

/-- A blank at the end goes first. -/
theorem trimEnd_concat (h : isBlank c = true) (cs : List Char) :
    trimEnd (cs ++ [c]) = trimEnd cs := by
  induction cs with
  | nil => simp [trimEnd, h]
  | cons d cs ih => rw [List.cons_append, trimEnd, ih, trimEnd]

/-- A character that is not blank keeps its place at the beginning. -/
theorem trim_cons_of_not_blank (h : isBlank c = false) (cs : List Char) :
    trim (c :: cs) = c :: trimEnd cs := by
  rw [trim, trimStart, List.dropWhile_cons_of_neg (by simp [h]), trimEnd]
  cases trimEnd cs with
  | nil => simp [h]
  | cons d ds => rfl

theorem trim_isInfix (cs : List Char) : trim cs <:+: cs :=
  (trimEnd_isPrefix _).isInfix.trans (List.dropWhile_suffix _).isInfix

/-- A text is trimmed if it neither begins nor ends with a blank. -/
theorem trim_eq_self (hd : ∀ c ∈ cs.head?, isBlank c = false)
    (hl : ∀ c ∈ cs.getLast?, isBlank c = false) : trim cs = cs := by
  have start : trimStart cs = cs := by
    cases cs with
    | nil => rfl
    | cons c cs => exact List.dropWhile_cons_of_neg (by simp [hd c rfl])
  rw [trim, start, trimEnd_eq_self hl]

theorem head?_trim (cs : List Char) : ∀ c ∈ (trim cs).head?, isBlank c = false := by
  intro c hc
  have start := List.head?_dropWhile_not isBlank cs
  have same : (trimStart cs).head? = some c := by
    obtain ⟨rest, hrest⟩ := trimEnd_isPrefix (trimStart cs)
    rw [← hrest, List.head?_append]
    rw [show trimEnd (trimStart cs) = trim cs from rfl, hc]
    rfl
  rw [← trimStart, same] at start
  simpa using start

theorem getLast?_trim (cs : List Char) : ∀ c ∈ (trim cs).getLast?, isBlank c = false :=
  getLast?_trimEnd _

@[simp] theorem trim_trim (cs : List Char) : trim (trim cs) = trim cs :=
  trim_eq_self (head?_trim cs) (getLast?_trim cs)

/-- A blank before a text is trimmed off. -/
theorem trim_cons_blank (h : isBlank c = true) (cs : List Char) : trim (c :: cs) = trim cs := by
  rw [trim, trimStart, List.dropWhile_cons_of_pos h]
  rfl

/-- A blank after a text that does not begin with one is trimmed off. -/
theorem trim_concat_blank (h : isBlank c = true) (hd : ∀ c ∈ cs.head?, isBlank c = false) :
    trim (cs ++ [c]) = trim cs := by
  cases cs with
  | nil => exact trim_cons_blank h []
  | cons d cs =>
    have hd := hd d rfl
    rw [trim, trimStart, List.cons_append, List.dropWhile_cons_of_neg (by simp [hd]),
      ← List.cons_append, trimEnd_concat h, trim, trimStart,
      List.dropWhile_cons_of_neg (by simp [hd])]

theorem trim_eq_self_iff :
    trim cs = cs ↔ (∀ c ∈ cs.head?, isBlank c = false) ∧ ∀ c ∈ cs.getLast?, isBlank c = false :=
  ⟨fun h => ⟨h ▸ head?_trim cs, h ▸ getLast?_trim cs⟩, fun h => trim_eq_self h.1 h.2⟩

/-- What comes before a trimmed text without being blank leaves it trimmed. -/
theorem trim_cons (hc : isBlank c = false) (h : trim cs = cs) : trim (c :: cs) = c :: cs := by
  refine trim_eq_self (by simpa using hc) ?_
  cases cs with
  | nil => simpa using hc
  | cons d cs =>
    rw [List.getLast?_cons_cons]
    exact (trim_eq_self_iff.mp h).2

/-- What stands between two trimmed texts is not trimmed off. -/
theorem trim_append (hcs : trim cs = cs) (hc : cs ≠ []) (hds : trim ds = ds) (hd : ds ≠ []) :
    trim (cs ++ c :: ds) = cs ++ c :: ds := by
  refine trim_eq_self ?_ ?_
  · rw [List.head?_append_of_ne_nil _ hc]
    exact (trim_eq_self_iff.mp hcs).1
  · rw [List.append_cons, List.getLast?_append_of_ne_nil _ hd]
    exact (trim_eq_self_iff.mp hds).2

/-- A text with something that is not blank after it ends there. -/
theorem trim_append_concat (hc : isBlank c = false) (hd : isBlank d = false) (cs : List Char) :
    trim (c :: (cs ++ [d])) = c :: (cs ++ [d]) :=
  trim_eq_self (by simpa using hc)
    (by rw [← List.cons_append, List.getLast?_concat]; simpa using hd)

/-! ## Lines -/

/-- A line with its line feed comes apart from the text after it. -/
theorem lines_append (h : '\n' ∉ cs) (ds : List Char) :
    lines (cs ++ '\n' :: ds) = cs :: lines ds := by
  induction cs with
  | nil => rfl
  | cons c cs ih =>
    obtain ⟨hc, hcs⟩ := List.ne_and_not_mem_of_not_mem_cons h
    rw [List.cons_append, lines, if_neg (Ne.symm hc), ih hcs]
    rfl

/-- Lines joined with their line feeds come apart again. -/
theorem lines_flatMap {ls : List (List Char)} (h : ∀ l ∈ ls, '\n' ∉ l) :
    lines (ls.flatMap (· ++ ['\n'])) = ls := by
  induction ls with
  | nil => rfl
  | cons l ls ih =>
    obtain ⟨hl, hls⟩ := List.forall_mem_cons.mp h
    rw [List.flatMap_cons, List.append_assoc, List.singleton_append, lines_append hl, ih hls]

theorem mem_consFirst {p : List Char} {ps : List (List Char)} (h : p ∈ consFirst c ps) :
    p = [c] ∨ p ∈ ps ∨ ∃ q ∈ ps, p = c :: q := by
  cases ps with
  | nil => exact .inl (List.mem_singleton.mp h)
  | cons q qs =>
    rcases List.mem_cons.mp h with rfl | h
    · exact .inr (.inr ⟨q, List.mem_cons_self, rfl⟩)
    · exact .inr (.inl (List.mem_cons_of_mem _ h))

/-- No line has a line feed in it. -/
theorem not_mem_of_mem_lines {cs l : List Char} (h : l ∈ lines cs) : '\n' ∉ l := by
  induction cs generalizing l with
  | nil => cases h
  | cons c cs ih =>
    unfold lines at h
    split at h
    next =>
      rcases List.mem_cons.mp h with rfl | h
      · exact List.not_mem_nil
      · exact ih h
    next hc =>
      have first : '\n' ≠ c := Ne.symm hc
      rcases mem_consFirst h with rfl | h | ⟨q, hq, rfl⟩
      · simpa using first
      · exact ih h
      · exact List.not_mem_cons_of_ne_of_not_mem first (ih hq)

/-! ## Words -/

/-- A piece goes up to the first character to split at. -/
theorem splitBy_append {p : Char → Bool} (h : ∀ d ∈ cs, p d = false) (hc : p c = true)
    (ds : List Char) : splitBy p (cs ++ c :: ds) = cs :: splitBy p ds := by
  induction cs with
  | nil => simp [splitBy, hc]
  | cons d cs ih =>
    obtain ⟨hd, hcs⟩ := List.forall_mem_cons.mp h
    rw [List.cons_append, splitBy, hd, ih hcs]
    rfl

/-- Without a character to split at there is one piece. -/
theorem splitBy_eq_singleton {p : Char → Bool} (h : ∀ d ∈ cs, p d = false) :
    splitBy p cs = [cs] := by
  induction cs with
  | nil => rfl
  | cons d cs ih =>
    obtain ⟨hd, hcs⟩ := List.forall_mem_cons.mp h
    rw [splitBy, hd, ih hcs]
    rfl

/-- A text that words can be. -/
def IsWord (w : List Char) : Prop := w ≠ [] ∧ ∀ c ∈ w, isBlank c = false

instance : DecidablePred IsWord := fun w =>
  decidable_of_iff (w ≠ [] ∧ w.any isBlank = false) (by simp [IsWord])

theorem IsWord.not_mem {w : List Char} (h : IsWord w) (hc : isBlank c = true) : c ∉ w :=
  fun member => by simp [h.2 c member] at hc

theorem words_singleton {w : List Char} (h : IsWord w) : words w = [w] := by
  rw [words, splitBy_eq_singleton h.2]
  simp [h.1]

theorem words_cons_blank (h : isBlank c = true) (cs : List Char) : words (c :: cs) = words cs := by
  simp [words, splitBy, h]

/-- A word with a blank after it comes apart from the words after it. -/
theorem words_append {w : List Char} (h : IsWord w) (hc : isBlank c = true) (cs : List Char) :
    words (w ++ c :: cs) = w :: words cs := by
  rw [words, splitBy_append h.2 hc, List.filter_cons_of_pos (by simpa using h.1)]
  rfl

/-- Words joined with blanks come apart again. -/
theorem words_intercalate {ws : List (List Char)} (h : ∀ w ∈ ws, IsWord w) :
    words ([' '].intercalate ws) = ws := by
  induction ws with
  | nil => rfl
  | cons w ws ih =>
    obtain ⟨hw, hws⟩ := List.forall_mem_cons.mp h
    cases ws with
    | nil => rw [List.intercalate_singleton, words_singleton hw]
    | cons v vs =>
      rw [List.intercalate_cons_cons, List.append_assoc, List.singleton_append,
        words_append hw (by decide), ih hws]

theorem IsWord.trim_eq {w : List Char} (h : IsWord w) : trim w = w :=
  trim_eq_self (fun c hc => h.2 c (List.mem_of_head? hc))
    (fun c hc => h.2 c (List.mem_of_getLast? hc))

/-- Words joined with blanks begin and end with a word. -/
theorem trim_intercalate {ws : List (List Char)} (h : ∀ w ∈ ws, IsWord w) :
    trim ([' '].intercalate ws) = [' '].intercalate ws := by
  induction ws with
  | nil => rfl
  | cons w ws ih =>
    obtain ⟨hw, hws⟩ := List.forall_mem_cons.mp h
    cases ws with
    | nil => rw [List.intercalate_singleton, hw.trim_eq]
    | cons v vs =>
      have joined : [' '].intercalate (v :: vs) ≠ [] := by
        have apart := words_intercalate hws
        intro h
        rw [h] at apart
        cases apart
      rw [List.intercalate_cons_cons, List.append_assoc, List.singleton_append]
      exact trim_append hw.trim_eq hw.1 (ih hws) joined

/-- The only blanks in joined words are those between them. -/
theorem not_mem_intercalate {ws : List (List Char)} (hb : isBlank c = true) (hc : c ≠ ' ')
    (h : ∀ w ∈ ws, IsWord w) : c ∉ [' '].intercalate ws := by
  have outside {w : List Char} (hw : IsWord w) : c ∉ w := fun hin => by
    rw [hw.2 c hin] at hb
    cases hb
  induction ws with
  | nil => exact List.not_mem_nil
  | cons w ws ih =>
    obtain ⟨hw, hws⟩ := List.forall_mem_cons.mp h
    cases ws with
    | nil =>
      rw [List.intercalate_singleton]
      exact outside hw
    | cons v vs =>
      rw [List.intercalate_cons_cons]
      simp [outside hw, hc, ih hws]

/-- The first word of a text that does not begin with a blank reaches to the first blank. -/
theorem words_of_not_blank (hne : cs ≠ []) (hd : ∀ c ∈ cs.head?, isBlank c = false) :
    words cs = cs.takeWhile (!isBlank ·) :: words (cs.dropWhile (!isBlank ·)) := by
  have whole := List.takeWhile_append_dropWhile (p := (!isBlank ·)) (l := cs)
  have first : IsWord (cs.takeWhile (!isBlank ·)) := by
    refine ⟨?_, fun c hc => by simpa using List.mem_takeWhile_imp hc⟩
    cases cs with
    | nil => exact absurd rfl hne
    | cons c cs => simp [hd c rfl]
  cases hrest : cs.dropWhile (!isBlank ·) with
  | nil =>
    rw [hrest, List.append_nil] at whole
    rw [whole] at first ⊢
    exact words_singleton first
  | cons b rest =>
    have blank : isBlank b = true := by
      have head := List.head?_dropWhile_not (!isBlank ·) cs
      rw [hrest] at head
      simpa using head
    rw [hrest] at whole
    rw [words_cons_blank blank, ← words_append first blank, whole]

theorem infix_of_mem_splitBy {p : Char → Bool} {w : List Char} (h : w ∈ splitBy p cs) :
    w ⊆ cs ∧ ∀ c ∈ w, p c = false := by
  induction cs generalizing w with
  | nil =>
    obtain rfl := List.mem_singleton.mp h
    simp
  | cons c cs ih =>
    unfold splitBy at h
    split at h
    next =>
      rcases List.mem_cons.mp h with rfl | h
      · simp
      · exact ⟨fun d hd => List.mem_cons_of_mem _ ((ih h).1 hd), (ih h).2⟩
    next hc =>
      have hc : p c = false := by simpa using hc
      rcases mem_consFirst h with rfl | h | ⟨q, hq, rfl⟩
      · simp [hc]
      · exact ⟨fun d hd => List.mem_cons_of_mem _ ((ih h).1 hd), (ih h).2⟩
      · exact ⟨List.cons_subset_cons c (ih hq).1, List.forall_mem_cons.mpr ⟨hc, (ih hq).2⟩⟩

/-- Words are not empty, and no blank is in them. -/
theorem isWord_of_mem_words {w : List Char} (h : w ∈ words cs) : IsWord w := by
  obtain ⟨piece, hne⟩ := List.mem_filter.mp h
  exact ⟨by simpa using hne, (infix_of_mem_splitBy piece).2⟩

/-! ## Arrows -/

/-- Where no arrows begin, the first ones come later. -/
theorem splitAtArrows_cons (h : ¬['>', '>'] <+: c :: cs) :
    splitAtArrows (c :: cs) =
      (splitAtArrows cs).map fun (before, after) => (c :: before, after) := by
  rw [splitAtArrows]
  rintro rest rfl rfl
  exact h ⟨rest, rfl⟩

/-- No arrows come about around a character that is not half of them. -/
theorem not_arrows_append (hc : c ≠ '>') (hcs : ¬['>', '>'] <:+: cs) (hds : ¬['>', '>'] <:+: ds) :
    ¬['>', '>'] <:+: cs ++ c :: ds := by
  induction cs with
  | nil =>
    rw [List.nil_append, List.infix_cons_iff, not_or]
    exact ⟨by simp [hc.symm], hds⟩
  | cons d cs ih =>
    rw [List.infix_cons_iff, not_or] at hcs
    rw [List.cons_append, List.infix_cons_iff, not_or]
    refine ⟨?_, ih hcs.2⟩
    cases cs with
    | nil => simp [hc.symm]
    | cons e cs => simpa using hcs.1

/-- What has no arrows in it and does not end in half of them stands before the first
arrows that come after it. -/
theorem splitAtArrows_append (h : ¬['>', '>'] <:+: cs) (hl : cs.getLast? ≠ some '>')
    (ds : List Char) : splitAtArrows (cs ++ '>' :: '>' :: ds) = some (cs, ds) := by
  induction cs with
  | nil => rfl
  | cons c cs ih =>
    rw [List.infix_cons_iff, not_or] at h
    have here : ¬['>', '>'] <+: c :: (cs ++ '>' :: '>' :: ds) := by
      cases cs with
      | nil => simpa using Ne.symm (by simpa using hl)
      | cons d cs => simpa using h.1
    have last : cs.getLast? ≠ some '>' := by
      cases cs with
      | nil => simp
      | cons d cs => rwa [List.getLast?_cons_cons] at hl
    rw [List.cons_append, splitAtArrows_cons here, ih h.2 last]
    rfl

/-- The text comes apart at its first arrows. -/
theorem splitAtArrows_eq_some {before after : List Char}
    (h : splitAtArrows cs = some (before, after)) :
    cs = before ++ '>' :: '>' :: after ∧ ¬['>', '>'] <:+: before := by
  induction cs generalizing before with
  | nil => cases h
  | cons c cs ih =>
    by_cases here : ['>', '>'] <+: c :: cs
    · obtain ⟨rest, hrest⟩ := here
      rw [← hrest] at h ⊢
      cases h
      exact ⟨rfl, by simp⟩
    · rw [splitAtArrows_cons here] at h
      obtain ⟨⟨front, back⟩, hsplit, heq⟩ := Option.map_eq_some_iff.mp h
      cases heq
      obtain ⟨whole, free⟩ := ih hsplit
      refine ⟨congrArg (c :: ·) whole, ?_⟩
      rw [List.infix_cons_iff, not_or]
      refine ⟨fun begins => here (begins.trans ?_), free⟩
      rw [whole]
      exact (List.prefix_append _ _)

/-- A text without arrows does not come apart. -/
theorem splitAtArrows_eq_none_iff : splitAtArrows cs = none ↔ ¬['>', '>'] <:+: cs := by
  induction cs with
  | nil => simp [splitAtArrows]
  | cons c cs ih =>
    rw [List.infix_cons_iff, not_or]
    by_cases here : ['>', '>'] <+: c :: cs
    · refine ⟨fun whole => ?_, fun free => absurd here free.1⟩
      obtain ⟨rest, hrest⟩ := here
      rw [← hrest] at whole
      cases whole
    · rw [splitAtArrows_cons here, Option.map_eq_none_iff, ih]
      exact ⟨fun free => ⟨here, free⟩, And.right⟩

end VisualNovel.Text
