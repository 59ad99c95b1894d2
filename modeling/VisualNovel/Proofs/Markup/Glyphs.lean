import VisualNovel.Proofs.Markup.Reveal
import VisualNovel.Proofs.Markup.Agreement

/-!
# The characters a text shows, with their styles

What is revealed of a text is styled anew, as a text of its own. It shows the first
characters of the whole text in the styles they have there: every tag that encloses them
is already open, and a tag that is no markup shows as far as it is there.

> `glyphs_merge`: joining runs that look the same gives every character the style of
> the first one of its kind, which does not depend on what comes after.

> `glyphs_runs_revealedIn`: the runs of what is revealed are the first of the text.

> `glyphs_styled_cut`: cut at the offset of a visible position, a text shows just the
> characters up to it, styled.
-/

namespace VisualNovel

namespace Style

variable {r s t : Style}

theorem numEq_comm (x y : Single) : x.numEq y = y.numEq x := by
  unfold Fp.numEq
  rw [Bool.and_comm (!x.isNaN), Bool.beq_comm]

theorem sameSize_comm (x y : Option Single) : sameSize x y = sameSize y x := by
  cases x with
  | none => cases y with
    | none => rfl
    | some y => rfl
  | some x => cases y with
    | none => rfl
    | some y => exact numEq_comm x y

/-- Looking the same size passes on. -/
theorem sameSize_trans {x y z : Option Single} (hxy : sameSize x y = true)
    (hyz : sameSize y z = true) : sameSize x z = true := by
  cases x with
  | none => cases y with
    | none => exact hyz
    | some y => exact absurd hxy Bool.false_ne_true
  | some x => cases y with
    | none => exact absurd hxy Bool.false_ne_true
    | some y => cases z with
      | none => exact absurd hyz Bool.false_ne_true
      | some z =>
        simp only [sameSize, Fp.numEq, Bool.and_eq_true, beq_iff_eq] at hxy hyz ⊢
        exact ⟨⟨hxy.1.1, hyz.1.2⟩, hxy.2.trans hyz.2⟩

theorem same_iff : r.same s = true ↔
    r.bold = s.bold ∧ r.italic = s.italic ∧ r.underline = s.underline ∧
      r.strikethrough = s.strikethrough ∧ r.color = s.color ∧
      sameSize r.size s.size = true := by
  simp only [same, Bool.and_eq_true, beq_iff_eq, and_assoc]

theorem same_symm (h : r.same s = true) : s.same r = true := by
  rw [same_iff] at h ⊢
  obtain ⟨hb, hi, hu, hk, hc, hs⟩ := h
  exact ⟨hb.symm, hi.symm, hu.symm, hk.symm, hc.symm, by rwa [sameSize_comm]⟩

theorem same_trans (hrs : r.same s = true) (hst : s.same t = true) : r.same t = true := by
  rw [same_iff] at hrs hst ⊢
  obtain ⟨hb, hi, hu, hk, hc, hs⟩ := hrs
  obtain ⟨hb', hi', hu', hk', hc', hs'⟩ := hst
  exact ⟨hb.trans hb', hi.trans hi', hu.trans hu', hk.trans hk', hc.trans hc',
    sameSize_trans hs hs'⟩

/-- Styles that look the same look the same as the same others. -/
theorem same_congr (h : r.same s = true) : r.same t = s.same t := by
  rw [Bool.eq_iff_iff]
  exact ⟨same_trans (same_symm h), same_trans h⟩

end Style

namespace Markup

open Piece

/-- The characters of some spans, each with its style. -/
def glyphs (spans : List Span) : List (Char × Style) :=
  spans.flatMap fun span => span.text.map fun c => (c, span.style)

/-- The glyphs of a span come before those of the spans after it. -/
theorem glyphs_cons (span : Span) (spans : List Span) :
    glyphs (span :: spans) = (span.text.map fun c => (c, span.style)) ++ glyphs spans :=
  List.flatMap_cons

/-! ## Joining runs -/

/-- Characters with the style of the one before, if theirs looks the same. -/
def blend (before : Style) : List (Char × Style) → List (Char × Style)
  | [] => []
  | (c, s) :: gs =>
    let style := if before.same s then before else s
    (c, style) :: blend style gs

theorem blend_take (before : Style) (n : Nat) (gs : List (Char × Style)) :
    blend before (gs.take n) = (blend before gs).take n := by
  induction gs generalizing before n with
  | nil => simp [blend]
  | cons g gs ih =>
    cases n with
    | zero => rfl
    | succ n => simp only [List.take_succ_cons, blend, ih]

/-- A run that looks like what is before it takes over its style. -/
theorem blend_same {before style : Style} (h : before.same style = true) (cs : List Char)
    (gs : List (Char × Style)) :
    blend before ((cs.map fun c => (c, style)) ++ gs) =
      (cs.map fun c => (c, before)) ++ blend before gs := by
  induction cs with
  | nil => rfl
  | cons c cs ih => simp only [List.map_cons, List.cons_append, blend, h, if_true, ih]

/-- Within a run the style stays. -/
theorem blend_self (style : Style) (cs : List Char) (gs : List (Char × Style)) :
    blend style ((cs.map fun c => (c, style)) ++ gs) =
      (cs.map fun c => (c, style)) ++ blend style gs := by
  induction cs with
  | nil => rfl
  | cons c cs ih => simp only [List.map_cons, List.cons_append, blend, ite_self, ih]

/-- A run that looks different from what is before it keeps its style. -/
theorem blend_other {before style : Style} (h : before.same style = false) {cs : List Char}
    (hcs : cs ≠ []) (gs : List (Char × Style)) :
    blend before ((cs.map fun c => (c, style)) ++ gs) =
      (cs.map fun c => (c, style)) ++ blend style gs := by
  cases cs with
  | nil => exact absurd rfl hcs
  | cons c cs =>
    simp only [List.map_cons, List.cons_append, blend, h, Bool.false_eq_true, if_false,
      blend_self]

/-- Joins runs to the one before them. -/
def mergeInto (last : Span) : List Span → List Span
  | [] => [last]
  | r :: rs =>
    if last.style.same r.style then mergeInto ⟨last.text ++ r.text, last.style⟩ rs
    else last :: mergeInto r rs

/-- The first of the joined runs has the style of the first run. -/
theorem mergeInto_head (last : Span) (rs : List Span) :
    ∃ text spans, mergeInto last rs = ⟨text, last.style⟩ :: spans := by
  induction rs generalizing last with
  | nil => exact ⟨last.text, [], rfl⟩
  | cons r rs ih =>
    rw [mergeInto]
    split
    next => exact ih _
    next => exact ⟨last.text, mergeInto r rs, rfl⟩

/-- More text before, in a style that looks the same, changes only the first of the
joined runs. -/
theorem mergeInto_same {style : Style} {last : Span} (h : style.same last.style = true)
    (before : List Char) {rs : List Span} {text : List Char} {spans : List Span}
    (hm : mergeInto last rs = ⟨text, last.style⟩ :: spans) :
    mergeInto ⟨before ++ last.text, style⟩ rs = ⟨before ++ text, style⟩ :: spans := by
  induction rs generalizing last with
  | nil =>
    obtain ⟨hl, rfl⟩ := List.cons.inj hm
    rw [← show last.text = text from congrArg Span.text hl]
    rfl
  | cons r rs ih =>
    rw [mergeInto] at hm ⊢
    rw [Style.same_congr h]
    cases hr : last.style.same r.style with
    | true =>
      rw [hr] at hm
      rw [if_pos rfl, List.append_assoc]
      exact @ih ⟨last.text ++ r.text, last.style⟩ h hm
    | false =>
      rw [hr] at hm
      obtain ⟨hl, rfl⟩ := List.cons.inj hm
      rw [← show last.text = text from congrArg Span.text hl]
      rfl

/-- Joining from the end is joining from the beginning. -/
theorem merge_cons (r : Span) (rs : List Span) : merge (r :: rs) = mergeInto r rs := by
  induction rs generalizing r with
  | nil => rfl
  | cons q rs ih =>
    obtain ⟨text, spans, hq⟩ := mergeInto_head q rs
    rw [merge, ih q, hq, mergeInto]
    dsimp only
    split
    next h => rw [mergeInto_same h r.text hq]
    next => rw [hq]

/-- Joining a span to those after it blends their styles from left to right. -/
theorem glyphs_mergeInto (last : Span) {rs : List Span} (h : ∀ r ∈ rs, r.text ≠ []) :
    glyphs (mergeInto last rs) =
      (last.text.map fun c => (c, last.style)) ++ blend last.style (glyphs rs) := by
  induction rs generalizing last with
  | nil => rfl
  | cons r rs ih =>
    have later : ∀ r ∈ rs, r.text ≠ [] := fun q hq => h q (List.mem_cons_of_mem r hq)
    rw [mergeInto, glyphs_cons]
    cases hs : last.style.same r.style with
    | true => simp [ih _ later, blend_same hs]
    | false =>
      simp [glyphs_cons, ih r later, blend_other hs (h r List.mem_cons_self)]

/-- What joining makes of the characters of some runs. -/
def joined : List (Char × Style) → List (Char × Style)
  | [] => []
  | (c, s) :: gs => (c, s) :: blend s gs

/-- Joining comes to the same before a cut and after it. -/
theorem joined_take (n : Nat) (gs : List (Char × Style)) :
    joined (gs.take n) = (joined gs).take n := by
  cases n with
  | zero => rfl
  | succ n =>
    cases gs with
    | nil => rfl
    | cons g gs => simp only [List.take_succ_cons, joined, blend_take]

/-- Joining gives every character the style of the first one of its kind. -/
theorem glyphs_merge {rs : List Span} (h : ∀ r ∈ rs, r.text ≠ []) :
    glyphs (merge rs) = joined (glyphs rs) := by
  cases rs with
  | nil => rfl
  | cons r rs =>
    rw [merge_cons, glyphs_mergeInto r fun q hq => h q (List.mem_cons_of_mem r hq), glyphs_cons]
    obtain ⟨c, cs, hr⟩ := List.exists_cons_of_ne_nil (h r List.mem_cons_self)
    rw [hr, List.map_cons, List.cons_append, List.cons_append, joined, blend_self]

/-! ## Runs -/

variable (s : Scopes)

theorem raw_ne_nil_of_mem_ofText (cs : List Char) : ∀ p ∈ ofText cs, p.raw ≠ [] := by
  have character (c : Char) {ps : List Piece} (h : ∀ p ∈ ps, p.raw ≠ []) :
      ∀ p ∈ consChar c ps, p.raw ≠ [] := by
    unfold consChar
    split
    next cs ps =>
      exact List.forall_mem_cons.mpr ⟨List.cons_ne_nil _ _, (List.forall_mem_cons.mp h).2⟩
    next => exact List.forall_mem_cons.mpr ⟨List.cons_ne_nil _ _, h⟩
  fun_induction ofText cs with
  | case1 => exact fun p hp => absurd hp List.not_mem_nil
  | case2 cs t rest _ ih =>
    exact List.forall_mem_cons.mpr ⟨by simp [raw, Tag.raw], ih⟩
  | case3 cs _ ih => exact character '<' ih
  | case4 c cs _ ih => exact character c ih

/-- No run of a text is empty. -/
theorem text_ne_nil_of_mem_runs {ps : List Piece} (h : ∀ p ∈ ps, p.raw ≠ []) :
    ∀ r ∈ runs s ps, r.text ≠ [] := by
  fun_induction runs s ps with
  | case1 => exact fun r hr => absurd hr List.not_mem_nil
  | case2 s cs ps ih =>
    rw [List.forall_mem_cons] at h ⊢
    exact ⟨h.1, ih h.2⟩
  | case3 s t ps s' _ ih => exact ih (List.forall_mem_cons.mp h).2
  | case4 s t ps _ ih =>
    rw [List.forall_mem_cons] at h ⊢
    exact ⟨h.1, ih h.2⟩

/-- A character that is not part of a tag shows in the style of the innermost scope. -/
theorem glyphs_runs_consChar (c : Char) (ps : List Piece) :
    glyphs (runs s (consChar c ps)) = (c, s.current) :: glyphs (runs s ps) := by
  unfold consChar
  split
  next => simp only [runs, glyphs_cons, List.map_cons, List.cons_append]
  next => simp only [runs, glyphs_cons, List.map_cons, List.map_nil, List.cons_append,
    List.nil_append]

/-- Without a `>`, every character shows, and in one style. -/
theorem glyphs_runs_of_noClose {cs : List Char} (h : '>' ∉ cs) :
    glyphs (runs s (ofText cs)) = cs.map fun c => (c, s.current) := by
  induction cs with
  | nil => rw [ofText]; rfl
  | cons c cs ih =>
    have rest : '>' ∉ cs := fun hmem => h (List.mem_cons_of_mem c hmem)
    rw [ofText_char fun _ => Tag.read_of_noClose rest, glyphs_runs_consChar, ih rest,
      List.map_cons]

/-- A tag that is no markup shows in the style of the innermost scope, as far as it is
there. -/
theorem glyphs_runs_take_raw {cs rest : List Char} {t : Tag}
    (h : Tag.read cs = some (t, rest)) (hs : s.step t = none) (n : Nat) :
    glyphs (runs s (ofText (t.raw.take n))) = (t.raw.take n).map fun c => (c, s.current) := by
  rcases Nat.lt_or_ge n t.raw.length with short | whole
  · exact glyphs_runs_of_noClose s (Tag.noClose_take_raw h short)
  · have alone := ofText_raw_append h []
    rw [List.append_nil] at alone
    rw [List.take_of_length_le whole, alone, ofText]
    simp only [runs, hs, glyphs_cons]
    exact List.append_nil _

/-- The runs of what is revealed show the first characters of the whole text, in the
styles they have there. -/
theorem glyphs_runs_revealedIn (n : Nat) {cs : List Char} (h : SizesRead (ofText cs)) :
    glyphs (runs s (ofText (revealedIn s.opened n (ofText cs)))) =
      (glyphs (runs s (ofText cs))).take n := by
  have character (c : Char) (cs : List Char) (hc : c = '<' → Tag.read cs = none)
      (ih : ∀ (s : Scopes) (n : Nat), glyphs (runs s (ofText (revealedIn s.opened n (ofText cs)))) =
        (glyphs (runs s (ofText cs))).take n) (s : Scopes) (n : Nat) :
      glyphs (runs s (ofText (revealedIn s.opened n (consChar c (ofText cs))))) =
        (glyphs (runs s (consChar c (ofText cs)))).take n := by
    cases n with
    | zero => rw [revealedIn_zero, ofText, List.take_zero]; rfl
    | succ n =>
      -- What is left after the character is cut short, and no tag begins by being cut.
      have cut : revealedIn s.opened n (ofText cs) <+: cs := by
        have := revealedIn_isPrefix s.opened n (ofText cs)
        rwa [flatMap_raw_ofText] at this
      rw [revealedIn_consChar, ofText_char fun hlt => Tag.read_of_isPrefix (hc hlt) cut,
        glyphs_runs_consChar, glyphs_runs_consChar, List.take_succ_cons, ih]
  fun_induction ofText cs generalizing s n with
  | case1 => simp [revealedIn, ofText, runs, glyphs]
  | case2 cs t rest ht ih =>
    obtain ⟨size, sizes⟩ := sizesRead_tag.mp h
    have same := step_opened s t size
    rw [revealedIn]
    split
    next hn => rw [hn, ofText, List.take_zero]; rfl
    next hn =>
      cases hs : s.step t with
      | some s' =>
        rw [hs] at same
        simp only [← same, Option.map_some, ofText_raw_append ht, runs, hs]
        exact ih s' n sizes
      | none =>
        rw [hs] at same
        simp only [← same, Option.map_none, runs, hs, glyphs_cons]
        split
        next short =>
          rw [glyphs_runs_take_raw s ht hs, List.take_append_of_le_length (by simpa using short),
            List.map_take]
        next long =>
          simp only [ofText_raw_append ht, runs, hs, glyphs_cons]
          have passed : (t.raw.map fun c => (c, s.current)).length ≤ n := by
            rw [List.length_map]
            omega
          rw [ih s _ sizes, List.take_append, List.length_map, List.take_of_length_le passed]
  | case3 cs ht ih =>
    exact character '<' cs (fun _ => ht) (fun s n => ih s n (sizesRead_consChar.mp h)) s n
  | case4 c cs hc ih =>
    exact character c cs (fun h => absurd h hc) (fun s n => ih s n (sizesRead_consChar.mp h)) s n

/-! ## A text cut at an offset -/

/-- Where every tag that opens a size gives a number for it, the text up to the offset of
a visible position shows the characters before that position, or all there are, each in
the style it has in the whole text. -/
theorem glyphs_styled_cut {text : List Char} (h : SizesRead (ofText text)) (n : Nat) :
    ∃ pre, takeBytes? (rawOffset text n) text = some pre ∧
      glyphs (styled pre) = (glyphs (styled text)).take n := by
  refine ⟨revealed text n, takeBytes?_of_isPrefix (revealed_isPrefix text n), ?_⟩
  have shown (cs : List Char) :
      glyphs (styled cs) = joined (glyphs (runs .start (ofText cs))) :=
    glyphs_merge (text_ne_nil_of_mem_runs .start (raw_ne_nil_of_mem_ofText cs))
  rw [shown, shown, ← joined_take, ← glyphs_runs_revealedIn .start n h]
  rfl

/-- The cut falls inside a closing tag that closes nothing, within a scope of a colour
that cannot be read. -/
theorem glyphs_styled_cut_closing :
    let text := "<b>é<color=zz>x</i></color><size= 1e1 >y</size></b>".toList
    SizesRead (ofText text) ∧
      ∃ pre, takeBytes? (rawOffset text 4) text = some pre ∧
        pre = "<b>é<color=zz>x</".toList ∧
        glyphs (styled pre) = (glyphs (styled text)).take 4 := by
  intro text
  have sizes : SizesRead (ofText text) := by decide +kernel
  obtain ⟨pre, cut, shown⟩ := glyphs_styled_cut sizes 4
  refine ⟨sizes, pre, cut, ?_, shown⟩
  have : takeBytes? (rawOffset text 4) text = some "<b>é<color=zz>x</".toList := by
    decide +kernel
  exact Option.some.inj (cut.symm.trans this)

end Markup

end VisualNovel
