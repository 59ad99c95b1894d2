import VisualNovel.Proofs.Markup.Cut
import VisualNovel.Markup.Styled

/-!
# What counting and styling take as markup

Counting the visible characters of a text and styling it decide apart, tag by tag, what
is markup. They differ in one case: counting passes over every tag with the name of a
size, and styling shows one as it stands that opens a size without a number.

> `visibleIn_eq_length_leftOver`, `flatMap_text_runs`: either way, what is visible is
> what is left of the text without the tags taken as markup.

> `marks_eq_iff`: the two take the same tags as markup exactly if every tag that opens
> a size gives a number for it.
-/

namespace VisualNovel

namespace Tag

/-- The number a tag gives as its value. -/
def size? (t : Tag) : Option Single := t.param.bind fun p => Fp.read? (Text.trim p)

/-- A tag that opens a size gives a number for it. -/
def SizeReads (t : Tag) : Prop :=
  t.closing = false → TagName.ofText? t.name = some .size → t.size?.isSome = true

instance (t : Tag) : Decidable t.SizeReads :=
  inferInstanceAs (Decidable (_ → _ → _))

end Tag

namespace Markup

open Piece

/-- The tags of a cut text. -/
def tags (ps : List Piece) : List Tag :=
  ps.filterMap fun
    | .run _ => none
    | .tag t => some t

/-- Every tag that opens a size gives a number for it. -/
def SizesRead (ps : List Piece) : Prop := ∀ t ∈ tags ps, t.SizeReads

instance (ps : List Piece) : Decidable (SizesRead ps) :=
  inferInstanceAs (Decidable (∀ t ∈ tags ps, t.SizeReads))

theorem sizesRead_run {cs : List Char} {ps : List Piece} :
    SizesRead (.run cs :: ps) ↔ SizesRead ps := Iff.rfl

theorem sizesRead_tag {t : Tag} {ps : List Piece} :
    SizesRead (.tag t :: ps) ↔ t.SizeReads ∧ SizesRead ps := List.forall_mem_cons

theorem sizesRead_consChar {c : Char} {ps : List Piece} :
    SizesRead (consChar c ps) ↔ SizesRead ps := by
  unfold consChar
  split
  next => exact Iff.rfl
  next => exact Iff.rfl

/-! ## One tag -/

variable (s : Scopes) (t : Tag)

/-- Opening a size asks for a number, opening any other scope for nothing. -/
theorem inside_isSome (style : Style) (name : TagName) :
    (style.inside name t.param).isSome = true ↔ name = .size → t.size?.isSome = true := by
  cases name with
  | size =>
    show ((t.size?).map _).isSome = true ↔ _
    rw [Option.isSome_map]
    exact ⟨fun h _ => h, fun h => h rfl⟩
  | _ => simp [Style.inside]

/-- Where a tag gives the size it opens, counting and styling go on in the same tags. -/
theorem step_opened (h : t.SizeReads) : (s.step t).map Scopes.opened = t.step s.opened := by
  unfold Scopes.step Tag.step
  cases hn : TagName.ofText? t.name with
  | none => rfl
  | some name =>
    dsimp only
    cases hc : t.closing with
    | true =>
      simp only [if_true]
      cases s.opened with
      | nil => rfl
      | cons top others =>
        dsimp only
        split
        next => rfl
        next => rfl
    | false =>
      simp only [Bool.false_eq_true, if_false]
      have opens : (s.current.inside name t.param).isSome = true :=
        (inside_isSome t _ _).mpr fun size => h hc (hn.trans (congrArg some size))
      obtain ⟨style, hs⟩ := Option.isSome_iff_exists.mp opens
      rw [hs]
      rfl

/-- A tag that opens a size without a number is markup only to counting. -/
theorem step_of_not_sizeReads (h : ¬t.SizeReads) :
    s.step t = none ∧ (t.step s.opened).isSome = true := by
  unfold Tag.SizeReads at h
  simp only [Classical.not_imp] at h
  obtain ⟨hc, hn, hs⟩ := h
  have closed : s.current.inside .size t.param = none := by
    rw [← Option.not_isSome_iff_eq_none, inside_isSome]
    exact fun given => hs (given rfl)
  unfold Scopes.step Tag.step
  simp [hn, hc, closed]

/-! ## A text -/

/-- For each tag of a cut text inside the given open tags, whether counting takes it as
markup. -/
def countedMarks (opened : List TagName) : List Piece → List Bool
  | [] => []
  | .run _ :: ps => countedMarks opened ps
  | .tag t :: ps =>
    match t.step opened with
    | some opened' => true :: countedMarks opened' ps
    | none => false :: countedMarks opened ps

/-- For each tag of a cut text inside the given scopes, whether styling takes it as
markup. -/
def styledMarks (s : Scopes) : List Piece → List Bool
  | [] => []
  | .run _ :: ps => styledMarks s ps
  | .tag t :: ps =>
    match s.step t with
    | some s' => true :: styledMarks s' ps
    | none => false :: styledMarks s ps

/-- What is left of a cut text without the tags that are marked. -/
def leftOver : List Bool → List Piece → List Char
  | _, [] => []
  | marks, .run cs :: ps => cs ++ leftOver marks ps
  | [], .tag t :: ps => t.raw ++ leftOver [] ps
  | true :: marks, .tag _ :: ps => leftOver marks ps
  | false :: marks, .tag t :: ps => t.raw ++ leftOver marks ps

/-- Counting counts what is left without what it takes as markup. -/
theorem visibleIn_eq_length_leftOver (opened : List TagName) (ps : List Piece) :
    visibleIn opened ps = (leftOver (countedMarks opened ps) ps).length := by
  fun_induction visibleIn opened ps with
  | case1 => rfl
  | case2 opened cs ps ih => rw [countedMarks, leftOver, List.length_append, ih]
  | case3 opened t ps opened' hs ih => simp only [countedMarks, hs, leftOver, ih]
  | case4 opened t ps hs ih =>
    simp only [countedMarks, hs, leftOver, List.length_append, ih]

/-- Styling shows what is left without what it takes as markup. -/
theorem flatMap_text_runs (s : Scopes) (ps : List Piece) :
    (runs s ps).flatMap Span.text = leftOver (styledMarks s ps) ps := by
  fun_induction runs s ps with
  | case1 => rfl
  | case2 s cs ps ih => rw [styledMarks, leftOver, List.flatMap_cons, ih]
  | case3 s t ps s' hs ih => simp only [styledMarks, hs, leftOver, ih]
  | case4 s t ps hs ih => simp only [styledMarks, hs, leftOver, List.flatMap_cons, ih]

/-- Joining runs keeps their text. -/
theorem flatMap_text_merge (rs : List Span) :
    (merge rs).flatMap Span.text = rs.flatMap Span.text := by
  induction rs with
  | nil => rfl
  | cons r rs ih =>
    rw [List.flatMap_cons, ← ih, merge]
    split
    next h => rw [h]; rfl
    next span spans h =>
      rw [h]
      split
      next => simp
      next => simp

/-- Counting and styling take the same tags as markup exactly if every tag that opens a
size gives a number for it. -/
theorem marks_eq_iff (ps : List Piece) :
    countedMarks s.opened ps = styledMarks s ps ↔ SizesRead ps := by
  induction ps generalizing s with
  | nil => exact ⟨fun _ t ht => absurd ht List.not_mem_nil, fun _ => rfl⟩
  | cons p ps ih =>
    cases p with
    | run cs =>
      rw [countedMarks, styledMarks, sizesRead_run]
      exact ih s
    | tag t =>
      rw [sizesRead_tag, countedMarks, styledMarks]
      by_cases ht : t.SizeReads
      · have same := step_opened s t ht
        rw [← same, and_iff_right ht]
        cases s.step t with
        | none => simp [ih]
        | some s' => simp [ih]
      · -- From the first size without a number on, the marks differ.
        obtain ⟨shown, counted⟩ := step_of_not_sizeReads s t ht
        obtain ⟨opened', hs⟩ := Option.isSome_iff_exists.mp counted
        simp [shown, hs, ht]

/-- Counting counts, and styling shows, what is left of a text without what they take as
markup. They take the same tags exactly if every tag that opens a size gives a number
for it; then as many characters are shown as were counted. -/
theorem counted_iff_shown (text : List Char) :
    visibleLength text = (leftOver (countedMarks [] (ofText text)) (ofText text)).length ∧
      plain text = leftOver (styledMarks .start (ofText text)) (ofText text) ∧
      (countedMarks [] (ofText text) = styledMarks .start (ofText text) ↔
        SizesRead (ofText text)) ∧
      (SizesRead (ofText text) → visibleLength text = (plain text).length) := by
  have counted := visibleIn_eq_length_leftOver [] (ofText text)
  have shown : plain text = leftOver (styledMarks .start (ofText text)) (ofText text) := by
    rw [plain, styled, flatMap_text_merge, flatMap_text_runs]
  have agree := marks_eq_iff .start (ofText text)
  refine ⟨counted, shown, agree, fun sizes => ?_⟩
  rw [shown, ← agree.mpr sizes]
  exact counted

/-- A size that is no number is shown as it stands, with its closing tag, but neither is
counted. -/
theorem size_word_not_counted :
    visibleLength "<size=abc>x</size>".toList = 1 ∧
      (plain "<size=abc>x</size>".toList).length = 18 := by
  decide +kernel

end Markup

end VisualNovel
