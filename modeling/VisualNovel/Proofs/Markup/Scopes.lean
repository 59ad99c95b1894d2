import Mathlib.Data.List.Chain
import VisualNovel.Proofs.Markup.Glyphs

/-!
# Scopes and the runs between them

Two stacks go along with the styling of a text, the names of the open tags and the styles of their
scopes. A tag that is markup pushes to both or pops both, and every other tag leaves both alone
(`Scopes.step_cases`), so that the style outside all tags is never popped
(`Scopes.Stacked.after`).

What comes out is as short as it can be: no span is empty, and no two neighbours look the same.
Looking the same is numeric where it is about sizes: a size that is not a number looks like none,
and two spans of such a size stay two.

> `Markup.runs_append`: the runs of a text go on from the scopes that its beginning leaves.

> `Markup.isChain_merge`: joined runs differ from their neighbours.

> `Markup.styled_normal`: the scopes on the way, the spans, and the style after the last closing
> tag.
-/

namespace VisualNovel

namespace Markup

open Piece

namespace Scopes

/-- The scopes after a piece of a text. -/
def pass (s : Scopes) : Piece → Scopes
  | .run _ => s
  | .tag t => (s.step t).getD s

/-- The scopes after some pieces. -/
def after (s : Scopes) (ps : List Piece) : Scopes := ps.foldl pass s

/-- Whether a tag of some pieces closes a scope. -/
def closesAny (s : Scopes) : List Piece → Bool
  | [] => false
  | .run _ :: ps => closesAny s ps
  | .tag t :: ps => t.closing && (s.step t).isSome || closesAny (s.pass (.tag t)) ps

/-- There is one style more than there are open tags, and the style outside all of them is at the
bottom. -/
structure Stacked (s : Scopes) : Prop where
  length : s.styles.length = s.opened.length + 1
  bottom : s.styles.getLast? = some Style.plain

variable {s s' : Scopes} {t : Tag} {ps : List Piece}

/-! ## One tag -/

/-- A tag that is markup pops both stacks or pushes to both. -/
theorem step_cases (h : s.step t = some s') :
    (t.closing = true ∧ ∃ name others, s.opened = name :: others ∧
        s' = ⟨others, s.styles.drop 1⟩) ∨
      t.closing = false ∧ ∃ name style, s' = ⟨name :: s.opened, style :: s.styles⟩ := by
  unfold step at h
  cases hn : TagName.ofText? t.name with
  | none => simp [hn] at h
  | some name =>
    simp only [hn] at h
    cases hc : t.closing with
    | true =>
      rw [hc, if_pos rfl] at h
      cases ho : s.opened with
      | nil => simp [ho] at h
      | cons top others =>
        simp only [ho] at h
        split at h
        next => exact .inl ⟨rfl, top, others, rfl, (Option.some.inj h).symm⟩
        next => exact absurd h (by simp)
    | false =>
      rw [hc, if_neg Bool.false_ne_true] at h
      obtain ⟨style, -, rfl⟩ := Option.map_eq_some_iff.mp h
      exact .inr ⟨rfl, name, style, rfl⟩

theorem stacked_start : Stacked start := ⟨rfl, rfl⟩

/-- A tag that is markup keeps the stacks together. -/
theorem Stacked.step (hs : s.Stacked) (h : s.step t = some s') : s'.Stacked := by
  obtain ⟨length, bottom⟩ := hs
  rcases step_cases h with ⟨-, name, others, opened, rfl⟩ | ⟨-, name, style, rfl⟩
  · -- A tag is open, so the style that is popped is not the one at the bottom.
    rw [opened, List.length_cons] at length
    refine ⟨by simp only [List.length_drop]; omega, ?_⟩
    rw [List.getLast?_drop, if_neg (by omega), bottom]
  · refine ⟨by simp only [List.length_cons]; omega, ?_⟩
    rw [List.getLast?_cons, bottom, Option.getD_some]

theorem pass_of_none (h : s.step t = none) : s.pass (.tag t) = s := by
  rw [pass, h, Option.getD_none]

theorem pass_of_some (h : s.step t = some s') : s.pass (.tag t) = s' := by
  rw [pass, h, Option.getD_some]

/-- So does every piece of a text. -/
theorem Stacked.pass (hs : s.Stacked) (p : Piece) : (s.pass p).Stacked := by
  cases p with
  | run => exact hs
  | tag t =>
    cases h : s.step t with
    | none => rwa [pass_of_none h]
    | some s' =>
      rw [pass_of_some h]
      exact hs.step h

/-- So do all of its pieces. -/
theorem Stacked.after (hs : s.Stacked) (ps : List Piece) : (s.after ps).Stacked := by
  induction ps generalizing s with
  | nil => exact hs
  | cons p ps ih => exact ih (hs.pass p)

/-- Outside all tags the style is the one at the bottom. -/
theorem Stacked.current (hs : s.Stacked) (h : s.opened = []) : s.current = Style.plain := by
  obtain ⟨length, bottom⟩ := hs
  rw [h] at length
  obtain ⟨style, styles⟩ := List.length_eq_one_iff.mp length
  unfold Scopes.current
  rw [styles] at bottom ⊢
  exact Option.some.inj bottom

end Scopes

/-! ## Runs -/

variable {s : Scopes} {ps : List Piece}

/-- The runs of a text go on from the scopes that its beginning leaves. -/
theorem runs_append (s : Scopes) (ps qs : List Piece) :
    runs s (ps ++ qs) = runs s ps ++ runs (s.after ps) qs := by
  induction ps generalizing s with
  | nil => rfl
  | cons p ps ih =>
    show runs s (p :: (ps ++ qs)) = runs s (p :: ps) ++ runs ((s.pass p).after ps) qs
    cases p with
    | run cs => simp only [runs, ih, List.cons_append, Scopes.pass]
    | tag t =>
      cases h : s.step t with
      | none => simp only [runs, h, ih, List.cons_append, Scopes.pass_of_none h]
      | some s' => simp only [runs, h, ih, Scopes.pass_of_some h]

/-- Where no tag closes a scope and none is left open, no tag is markup: all of the text shows,
in the style outside all tags. -/
theorem glyphs_runs_unopened (hs : s.Stacked) (h : s.closesAny ps = false)
    (closed : (s.after ps).opened = []) :
    s.opened = [] ∧ glyphs (runs s ps) = (ps.flatMap raw).map fun c => (c, Style.plain) := by
  induction ps generalizing s with
  | nil => exact ⟨closed, rfl⟩
  | cons p ps ih =>
    have later : (s.pass p).closesAny ps = false := by
      cases p with
      | run => exact h
      | tag t => exact (Bool.or_eq_false_iff.mp h).2
    obtain ⟨opened, shown⟩ := ih (hs.pass p) later closed
    have shows (same : s.pass p = s) (run : runs s (p :: ps) = ⟨p.raw, s.current⟩ :: runs s ps) :
        s.opened = [] ∧
          glyphs (runs s (p :: ps)) = ((p :: ps).flatMap raw).map fun c => (c, Style.plain) := by
      rw [same] at opened shown
      refine ⟨opened, ?_⟩
      rw [run, glyphs_cons, shown, hs.current opened, List.flatMap_cons, List.map_append]
    cases p with
    | run cs => exact shows rfl rfl
    | tag t =>
      cases step : s.step t with
      | none => exact shows (Scopes.pass_of_none step) (by simp only [runs, step, raw])
      | some s' =>
        -- A tag that opens a scope leaves it open, as none is closed later.
        rcases Scopes.step_cases step with ⟨closing, -⟩ | ⟨-, name, style, rfl⟩
        · simp [Scopes.closesAny, closing, step] at h
        · rw [Scopes.pass_of_some step] at opened
          exact absurd opened (List.cons_ne_nil _ _)

/-! ## Spans -/

/-- What looks like the style outside all tags is that style. -/
theorem eq_plain_of_same {style : Style} (h : style.same Style.plain = true) :
    style = Style.plain := by
  obtain ⟨hb, hi, hu, hk, hc, hs⟩ := Style.same_iff.mp h
  obtain ⟨_, _, _, _, _, size⟩ := style
  cases size with
  | none =>
    cases hb
    cases hi
    cases hu
    cases hk
    cases hc
    rfl
  | some => exact absurd hs Bool.false_ne_true

/-- Joining changes no style to that outside all tags, nor from it. -/
theorem blend_plain (before : Style) (cs : List Char) :
    blend before (cs.map fun c => (c, Style.plain)) = cs.map fun c => (c, Style.plain) := by
  induction cs generalizing before with
  | nil => rfl
  | cons c cs ih =>
    have style : (if before.same Style.plain then before else Style.plain) = Style.plain := by
      split
      next same => exact eq_plain_of_same same
      next => rfl
    rw [List.map_cons, blend, style, ih]

theorem blend_append_plain (before : Style) (gs : List (Char × Style)) (cs : List Char) :
    blend before (gs ++ cs.map fun c => (c, Style.plain)) =
      blend before gs ++ cs.map fun c => (c, Style.plain) := by
  induction gs generalizing before with
  | nil => exact blend_plain before cs
  | cons g gs ih => simp only [List.cons_append, blend, ih]

theorem joined_append_plain (gs : List (Char × Style)) (cs : List Char) :
    joined (gs ++ cs.map fun c => (c, Style.plain)) =
      joined gs ++ cs.map fun c => (c, Style.plain) := by
  cases gs with
  | nil =>
    cases cs with
    | nil => rfl
    | cons c cs => simp only [List.nil_append, List.map_cons, joined, blend_plain]
  | cons g gs => simp only [List.cons_append, joined, blend_append_plain]

theorem map_fst_blend (before : Style) (gs : List (Char × Style)) :
    (blend before gs).map Prod.fst = gs.map Prod.fst := by
  induction gs generalizing before with
  | nil => rfl
  | cons g gs ih => simp only [blend, List.map_cons, ih]

/-- Joining changes no character. -/
theorem map_fst_joined (gs : List (Char × Style)) :
    (joined gs).map Prod.fst = gs.map Prod.fst := by
  cases gs with
  | nil => rfl
  | cons g gs => simp only [joined, List.map_cons, map_fst_blend]

/-- The characters of the spans are those of their glyphs. -/
theorem map_fst_glyphs (spans : List Span) :
    (glyphs spans).map Prod.fst = spans.flatMap Span.text := by
  simp [glyphs, List.map_flatMap, Function.comp_def]

/-- Joining makes no span empty. -/
theorem text_ne_nil_of_mem_merge {rs : List Span} (h : ∀ r ∈ rs, r.text ≠ []) :
    ∀ r ∈ merge rs, r.text ≠ [] := by
  induction rs with
  | nil => exact h
  | cons r rs ih =>
    rw [List.forall_mem_cons] at h
    have later := ih h.2
    rw [merge]
    split
    next => exact List.forall_mem_singleton.mpr h.1
    next s ss joinedLater =>
      rw [joinedLater, List.forall_mem_cons] at later
      split
      next => exact List.forall_mem_cons.mpr ⟨by simp [h.1], later.2⟩
      next => exact List.forall_mem_cons.mpr ⟨h.1, List.forall_mem_cons.mpr later⟩

/-- Joined runs look different from their neighbours. -/
theorem isChain_merge (rs : List Span) :
    (merge rs).IsChain fun a b => a.style.same b.style = false := by
  induction rs with
  | nil => exact .nil
  | cons r rs ih =>
    rw [merge]
    split
    next => exact .singleton r
    next s ss joinedLater =>
      rw [joinedLater] at ih
      split
      next same =>
        -- The joined span looks like the one it was joined to, and differs from the same others.
        cases ss with
        | nil => exact .singleton _
        | cons q qs =>
          rw [List.isChain_cons_cons] at ih ⊢
          exact ⟨(Style.same_congr same).trans ih.1, ih.2⟩
      next other => exact .cons_cons (Bool.eq_false_iff.mpr other) ih

/-- Wherever a text is cut between its pieces, its runs go on from the scopes there, which have
one style more than open tags and the style outside all tags at the bottom. No span is empty, and
neighbours look different. If every tag is closed at the end, the text after the last tag that
closes a scope shows as it stands, in the style outside all tags. -/
theorem styled_normal (text : List Char) :
    (∀ before after, ofText text = before ++ after →
      runs .start (ofText text) = runs .start before ++ runs (Scopes.start.after before) after ∧
      (Scopes.start.after before).Stacked) ∧
    (∀ span ∈ styled text, span.text ≠ []) ∧
    ((styled text).IsChain fun a b => a.style.same b.style = false) ∧
    ∀ before after, ofText text = before ++ after →
      (Scopes.start.after (ofText text)).opened = [] →
      (Scopes.start.after before).closesAny after = false →
      ∃ front, front.map Prod.fst = (runs .start before).flatMap Span.text ∧
        glyphs (styled text) = front ++ (after.flatMap raw).map fun c => (c, Style.plain) := by
  have filled : ∀ r ∈ runs .start (ofText text), r.text ≠ [] :=
    text_ne_nil_of_mem_runs .start (raw_ne_nil_of_mem_ofText text)
  refine ⟨fun before after cut => ⟨cut ▸ runs_append .start before after, ?_⟩,
    text_ne_nil_of_mem_merge filled, isChain_merge _, fun before after cut closed none => ?_⟩
  · exact Scopes.stacked_start.after before
  · rw [cut, Scopes.after, List.foldl_append] at closed
    obtain ⟨-, shown⟩ := glyphs_runs_unopened (Scopes.stacked_start.after before) none closed
    refine ⟨joined (glyphs (runs .start before)), ?_, ?_⟩
    · rw [map_fst_joined, map_fst_glyphs]
    · rw [styled, glyphs_merge filled, cut, runs_append, ← joined_append_plain, ← shown]
      exact congrArg joined List.flatMap_append

/-- Tags that are no markup stand within a scope and behind the last one, and a scope of a size
that cannot be read is not opened. -/
theorem styled_normal_literals :
    let text := "<b>é</i><size=x>a</b> y</u>z".toList
    let before := (ofText text).take 6
    let after := (ofText text).drop 6
    (Scopes.start.after (ofText text)).opened = [] ∧
      (Scopes.start.after before).closesAny after = false ∧
      (Scopes.start.after (before.take 3)).Stacked ∧
      ∃ front, glyphs (styled text) = front ++ (" y</u>z".toList.map fun c => (c, Style.plain)) := by
  intro text before after
  have cut : ofText text = before ++ after := (List.take_append_drop 6 _).symm
  have closed : (Scopes.start.after (ofText text)).opened = [] := by decide +kernel
  have none : (Scopes.start.after before).closesAny after = false := by decide +kernel
  have rest : after.flatMap raw = " y</u>z".toList := by decide +kernel
  obtain ⟨scopes, -, -, ends⟩ := styled_normal text
  obtain ⟨front, -, shown⟩ := ends before after cut closed none
  refine ⟨closed, none, (scopes (before.take 3) (before.drop 3 ++ after) ?_).2, front, rest ▸ shown⟩
  rw [← List.append_assoc, List.take_append_drop, ← cut]

end Markup

end VisualNovel
