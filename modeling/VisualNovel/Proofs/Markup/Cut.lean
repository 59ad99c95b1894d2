import VisualNovel.Markup.Reveal

/-!
# Cutting a text at its tags, and cutting it short

Whether a tag begins at a `<` is decided by what stands up to the next `>`: nothing
after it can take the tag apart, and nothing before that `>` is a tag by itself. So a
text that ends early has the same tags as far as it goes.

> `raw_inner`: the text of a tag has one `>`, its last character, and is read as the
> tag whatever follows it.

> `read_of_isPrefix`: where no tag begins, none begins in a text that ends sooner.

> `visibleIn_take_raw`: a tag that is no markup is visible as far as it is there.
-/

namespace VisualNovel

namespace Tag

variable {closing : Bool} {name cs rest : List Char} {t : Tag}

/-- The rest of a tag was read up to the first `>`, whatever comes after it. -/
theorem readEnd_inner (h : readEnd closing name cs = some (t, rest)) :
    ∃ inner, cs = inner ++ '>' :: rest ∧ '>' ∉ inner ∧
      ∀ more, readEnd closing name (inner ++ '>' :: more) = some (t, more) := by
  unfold readEnd at h
  split at h
  next =>
    simp only [Option.some.injEq, Prod.mk.injEq] at h
    obtain ⟨rfl, rfl⟩ := h
    exact ⟨[], rfl, List.not_mem_nil, fun more => rfl⟩
  next ds =>
    dsimp only at h
    split at h
    next c after hd =>
      split at h
      next => simp at h
      next hne =>
        simp only [Option.some.injEq, Prod.mk.injEq] at h
        obtain ⟨rfl, rfl⟩ := h
        obtain rfl : c = '>' := dropWhile_ne_cons hd
        -- The value goes up to the first closing bracket, so it holds none.
        have plain : ∀ d ∈ ds.takeWhile (· ≠ '>'), decide (d ≠ '>') = true :=
          List.all_eq_true.mp List.all_takeWhile
        refine ⟨'=' :: ds.takeWhile (· ≠ '>'), ?_, ?_, fun more => ?_⟩
        · rw [← hd, List.cons_append, List.takeWhile_append_dropWhile]
        · intro hmem
          rcases List.mem_cons.mp hmem with heq | hmem
          · exact absurd heq (by decide)
          · exact absurd (plain _ hmem) (by simp)
        · have value : (ds.takeWhile (· ≠ '>') ++ '>' :: more).takeWhile (· ≠ '>') =
              ds.takeWhile (· ≠ '>') := by
            rw [List.takeWhile_append_of_pos plain]
            simp
          have left : (ds.takeWhile (· ≠ '>') ++ '>' :: more).dropWhile (· ≠ '>') =
              '>' :: more := by
            rw [List.dropWhile_append_of_pos plain]
            simp
          simp only [List.cons_append, readEnd, value, left, if_neg hne]
    next => simp at h
  next => simp at h

theorem not_isWordChar_close : Text.isWordChar '>' = false := by decide

/-- So were its name and the rest of it. -/
theorem readName_inner (h : readName closing cs = some (t, rest)) :
    ∃ inner, cs = inner ++ '>' :: rest ∧ '>' ∉ inner ∧
      ∀ more, readName closing (inner ++ '>' :: more) = some (t, more) := by
  unfold readName at h
  dsimp only at h
  split at h
  next => simp at h
  next hne =>
    obtain ⟨inner, hcs, noClose, anything⟩ := readEnd_inner h
    have wordChars : ∀ d ∈ cs.takeWhile Text.isWordChar, Text.isWordChar d = true :=
      List.all_eq_true.mp List.all_takeWhile
    have stops (more : List Char) : (inner ++ '>' :: more).takeWhile Text.isWordChar = [] := by
      cases inner with
      | nil => simp [not_isWordChar_close]
      | cons d ds =>
        have := List.head?_dropWhile_not Text.isWordChar cs
        simp only [hcs, List.cons_append, List.head?_cons] at this
        simp [this]
    refine ⟨cs.takeWhile Text.isWordChar ++ inner, ?_, ?_, fun more => ?_⟩
    · rw [List.append_assoc, ← hcs, List.takeWhile_append_dropWhile]
    · intro hmem
      rcases List.mem_append.mp hmem with hmem | hmem
      · exact absurd (wordChars _ hmem) (by simp [not_isWordChar_close])
      · exact noClose hmem
    · have whole := List.takeWhile_append_dropWhile (p := Text.isWordChar)
        (l := inner ++ '>' :: more)
      rw [stops, List.nil_append] at whole
      simp only [List.append_assoc, readName, List.takeWhile_append_of_pos wordChars,
        List.dropWhile_append_of_pos wordChars, stops, List.append_nil, whole, if_neg hne]
      exact anything more

/-- A tag was read up to the first `>`, whatever comes after it. -/
theorem read_inner (h : read cs = some (t, rest)) :
    ∃ inner, cs = inner ++ '>' :: rest ∧ '>' ∉ inner ∧
      ∀ more, read (inner ++ '>' :: more) = some (t, more) := by
  unfold read at h
  split at h
  next ds =>
    obtain ⟨inner, rfl, noClose, anything⟩ := readName_inner h
    refine ⟨'/' :: inner, rfl, ?_, anything⟩
    simpa using noClose
  next noSlash =>
    obtain ⟨inner, rfl, noClose, anything⟩ := readName_inner h
    refine ⟨inner, rfl, noClose, fun more => ?_⟩
    rw [← anything more]
    cases inner with
    | nil => rfl
    | cons d ds =>
      unfold read
      split
      next heq => exact absurd (by rw [← (List.cons.inj heq).1]; rfl) (noSlash (ds ++ '>' :: rest))
      next => rfl

/-- The text of a tag that was read ends with its only `>`, and is read as the tag
wherever it stands. -/
theorem raw_inner (h : read cs = some (t, rest)) :
    ∃ inner, t.raw = '<' :: inner ++ ['>'] ∧ '>' ∉ inner ∧
      ∀ more, read (inner ++ '>' :: more) = some (t, more) := by
  obtain ⟨inner, hcs, noClose, anything⟩ := read_inner h
  refine ⟨inner, ?_, noClose, anything⟩
  have whole := read_raw h
  rw [hcs] at whole
  exact (List.append_left_inj rest).mp (by simpa using whole)

/-- Without a `>`, no tag is read. -/
theorem read_of_noClose (h : '>' ∉ cs) : read cs = none := by
  cases hr : read cs with
  | none => rfl
  | some read =>
    obtain ⟨inner, rfl, -, -⟩ := read_inner hr
    exact absurd h (by simp)

/-- Cut short, the text of a tag has lost its only `>`. -/
theorem noClose_take_raw (h : read cs = some (t, rest)) {n : Nat} (short : n < t.raw.length) :
    '>' ∉ t.raw.take n := by
  obtain ⟨inner, raw, noClose, -⟩ := raw_inner h
  rw [raw] at short ⊢
  simp only [List.length_append, List.length_cons, List.length_nil] at short
  rw [List.take_append_of_le_length (by simp only [List.length_cons]; omega)]
  intro hmem
  rcases List.mem_cons.mp (List.mem_of_mem_take hmem) with heq | hmem
  · exact absurd heq (by decide)
  · exact noClose hmem

/-- Where no tag begins, none begins in a text that ends sooner. -/
theorem read_of_isPrefix {pre : List Char} (h : read cs = none) (hp : pre <+: cs) :
    read pre = none := by
  cases hr : read pre with
  | none => rfl
  | some read =>
    obtain ⟨t, left⟩ := read
    obtain ⟨more, rfl⟩ := hp
    obtain ⟨inner, rfl, -, anything⟩ := read_inner hr
    rw [List.append_assoc, List.cons_append, anything] at h
    exact absurd h (by simp)

end Tag

namespace Piece

variable {cs rest : List Char} {t : Tag}

theorem ofText_tag (h : Tag.read cs = some (t, rest)) :
    ofText ('<' :: cs) = tag t :: ofText rest := by
  rw [ofText, if_pos rfl]
  split
  next t' rest' h' =>
    rw [h] at h'
    obtain ⟨rfl, rfl⟩ := Prod.mk.inj (Option.some.inj h')
    rfl
  next h' =>
    rw [h] at h'
    exact absurd h' (by simp)

theorem ofText_char {c : Char} (h : c = '<' → Tag.read cs = none) :
    ofText (c :: cs) = consChar c (ofText cs) := by
  rw [ofText]
  split
  next hc =>
    split
    next h' =>
      rw [h hc] at h'
      exact absurd h' (by simp)
    next => rfl
  next => rfl

/-- A tag is one whatever follows it. -/
theorem ofText_raw_append (h : Tag.read cs = some (t, rest)) (more : List Char) :
    ofText (t.raw ++ more) = tag t :: ofText more := by
  obtain ⟨inner, raw, -, anything⟩ := Tag.raw_inner h
  rw [show t.raw ++ more = '<' :: (inner ++ '>' :: more) by simp [raw], ofText_tag (anything more)]

end Piece

namespace Markup

open Piece

variable (opened : List TagName)

/-- A character that is not part of a tag is visible. -/
theorem visibleIn_consChar (c : Char) (ps : List Piece) :
    visibleIn opened (consChar c ps) = visibleIn opened ps + 1 := by
  unfold consChar
  split
  next => simp only [visibleIn, List.length_cons]; omega
  next => simp only [visibleIn, List.length_cons, List.length_nil]; omega

/-- Without a `>`, every character is visible. -/
theorem visibleIn_of_noClose {cs : List Char} (h : '>' ∉ cs) :
    visibleIn opened (ofText cs) = cs.length := by
  induction cs with
  | nil => rw [ofText]; rfl
  | cons c cs ih =>
    have rest : '>' ∉ cs := fun hmem => h (List.mem_cons_of_mem c hmem)
    rw [ofText_char fun _ => Tag.read_of_noClose rest, visibleIn_consChar, ih rest,
      List.length_cons]

/-- A tag that is no markup is visible as far as it is there. -/
theorem visibleIn_take_raw {cs rest : List Char} {t : Tag} (h : Tag.read cs = some (t, rest))
    (hs : t.step opened = none) {n : Nat} (hn : n ≤ t.raw.length) :
    visibleIn opened (ofText (t.raw.take n)) = n := by
  -- Cut short, the tag is none any more.
  rcases Nat.lt_or_eq_of_le hn with short | whole
  · rw [visibleIn_of_noClose opened (Tag.noClose_take_raw h short), List.length_take,
      Nat.min_eq_left hn]
  · have alone := ofText_raw_append h []
    rw [List.append_nil] at alone
    rw [whole, List.take_length, alone, ofText]
    simp only [visibleIn, hs, Nat.add_zero]

end Markup

end VisualNovel
