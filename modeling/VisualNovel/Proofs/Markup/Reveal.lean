import VisualNovel.Proofs.Markup.Cut

/-!
# Where visible positions stand in a text

What is revealed of a text is cut from it, and a text that is cut short is read anew
when it is shown. The cut never falls inside markup, so the shorter text has as many
visible characters as were asked for.

> `visibleIn_revealedIn`: so many characters are revealed, or all there are.

> `revealedIn_isPrefix_of_le`: more characters reveal more of the text.

> `rawOffset_exact`: byte offsets are ends of characters outside markup, one for each
> visible position.
-/

namespace VisualNovel.Markup

open Piece

/-! ## Bytes -/

@[simp] theorem byteLength_append (cs ds : List Char) :
    byteLength (cs ++ ds) = byteLength cs + byteLength ds := by
  induction cs with
  | nil => simp [byteLength]
  | cons c cs ih => simp only [List.cons_append, byteLength, ih, Nat.add_assoc]

theorem byteLength_pos {cs : List Char} (h : cs ≠ []) : 0 < byteLength cs := by
  cases cs with
  | nil => exact absurd rfl h
  | cons c cs =>
    have := c.utf8Size_pos
    simp only [byteLength]
    omega

theorem byteLength_le_of_isPrefix {pre cs : List Char} (h : pre <+: cs) :
    byteLength pre ≤ byteLength cs := by
  obtain ⟨more, rfl⟩ := h
  simp

/-- The beginning of a text that takes so many bytes, if they end with a character. -/
def takeBytes? : Nat → List Char → Option (List Char)
  | 0, _ => some []
  | _ + 1, [] => none
  | k + 1, c :: cs =>
    if c.utf8Size ≤ k + 1 then (takeBytes? (k + 1 - c.utf8Size) cs).map (c :: ·) else none

/-- The bytes of a beginning of a text end with a character. -/
theorem takeBytes?_of_isPrefix {pre cs : List Char} (h : pre <+: cs) :
    takeBytes? (byteLength pre) cs = some pre := by
  induction pre generalizing cs with
  | nil => simp [byteLength, takeBytes?]
  | cons c pre ih =>
    obtain ⟨more, rfl⟩ := h
    have size := c.utf8Size_pos
    obtain ⟨k, hk⟩ : ∃ k, byteLength (c :: pre) = k + 1 :=
      ⟨byteLength (c :: pre) - 1, by simp only [byteLength]; omega⟩
    have left : k + 1 - c.utf8Size = byteLength pre := by
      simp only [byteLength] at hk
      omega
    have fits : c.utf8Size ≤ k + 1 := by
      simp only [byteLength] at hk
      omega
    rw [hk, List.cons_append, takeBytes?, if_pos fits, left, ih (List.prefix_append pre more)]
    rfl

/-! ## Markup in a text -/

/-- Where the tags that are markup begin and end, in bytes, in a cut text that stands
at `start` inside the given open tags. -/
def markupIn (opened : List TagName) (start : Nat) : List Piece → List (Nat × Nat)
  | [] => []
  | .run cs :: ps => markupIn opened (start + byteLength cs) ps
  | .tag t :: ps =>
    match t.step opened with
    | some opened' =>
      (start, start + byteLength t.raw) :: markupIn opened' (start + byteLength t.raw) ps
    | none => markupIn opened (start + byteLength t.raw) ps

/-- Where the tags of a text that are markup begin and end, in bytes. -/
def markup (text : List Char) : List (Nat × Nat) := markupIn [] 0 (ofText text)

theorem le_of_mem_markupIn {opened : List TagName} {start : Nat} {ps : List Piece}
    {span : Nat × Nat} (h : span ∈ markupIn opened start ps) : start ≤ span.1 := by
  fun_induction markupIn opened start ps with
  | case1 => exact absurd h List.not_mem_nil
  | case2 opened start cs ps ih => exact Nat.le_trans (Nat.le_add_right _ _) (ih h)
  | case3 opened start t ps opened' hs ih =>
    rcases List.mem_cons.mp h with rfl | h
    · exact Nat.le_refl _
    · exact Nat.le_trans (Nat.le_add_right _ _) (ih h)
  | case4 opened start t ps hs ih => exact Nat.le_trans (Nat.le_add_right _ _) (ih h)

/-- The end of what is revealed is not inside markup. -/
theorem revealedIn_outside (opened : List TagName) (start n : Nat) (ps : List Piece) :
    ∀ span ∈ markupIn opened start ps,
      start + byteLength (revealedIn opened n ps) ≤ span.1 ∨
        span.2 ≤ start + byteLength (revealedIn opened n ps) := by
  -- Where the text ends in a run or in a tag that shows, all markup left comes later.
  fun_induction revealedIn opened n ps generalizing start with
  | case1 => exact fun span h => absurd h List.not_mem_nil
  | case2 opened n cs ps short =>
    intro span h
    rw [markupIn] at h
    have := le_of_mem_markupIn h
    have := byteLength_le_of_isPrefix (cs.take_prefix n)
    omega
  | case3 opened n cs ps long ih =>
    intro span h
    rw [markupIn] at h
    rw [byteLength_append, ← Nat.add_assoc]
    exact ih _ span h
  | case4 opened t ps =>
    intro span h
    exact .inl (le_of_mem_markupIn h)
  | case5 opened n t ps hn opened' hs ih =>
    intro span h
    simp only [markupIn, hs] at h
    rw [byteLength_append, ← Nat.add_assoc]
    rcases List.mem_cons.mp h with rfl | h
    · exact .inr (Nat.le_add_right _ _)
    · exact ih _ span h
  | case6 opened n t ps hn hs short =>
    intro span h
    simp only [markupIn, hs] at h
    have := le_of_mem_markupIn h
    have := byteLength_le_of_isPrefix (t.raw.take_prefix n)
    omega
  | case7 opened n t ps hn hs long ih =>
    intro span h
    simp only [markupIn, hs] at h
    rw [byteLength_append, ← Nat.add_assoc]
    exact ih _ span h

/-! ## What is revealed -/

theorem revealedIn_zero (opened : List TagName) (ps : List Piece) :
    revealedIn opened 0 ps = [] := by
  cases ps with
  | nil => rfl
  | cons p ps =>
    cases p with
    | run cs => simp [revealedIn]
    | tag t => simp [revealedIn]

/-- A character that is not part of a tag is revealed as the next one. -/
theorem revealedIn_consChar (opened : List TagName) (n : Nat) (c : Char) (ps : List Piece) :
    revealedIn opened (n + 1) (consChar c ps) = c :: revealedIn opened n ps := by
  unfold consChar
  split
  next cs ps =>
    simp only [revealedIn, List.length_cons, Nat.add_le_add_iff_right]
    split
    next => rw [List.take_succ_cons]
    next => rw [Nat.add_sub_add_right, List.cons_append]
  next =>
    simp only [revealedIn, List.length_cons, List.length_nil, Nat.add_sub_cancel]
    split
    next short =>
      obtain rfl : n = 0 := by omega
      rw [revealedIn_zero]
      rfl
    next => rfl

/-- So many characters are revealed, or all there are. -/
theorem visibleIn_revealedIn (opened : List TagName) (n : Nat) (cs : List Char) :
    visibleIn opened (ofText (revealedIn opened n (ofText cs))) =
      min n (visibleIn opened (ofText cs)) := by
  have character (c : Char) (cs : List Char) (h : c = '<' → Tag.read cs = none)
      (ih : ∀ opened n, visibleIn opened (ofText (revealedIn opened n (ofText cs))) =
        min n (visibleIn opened (ofText cs))) (opened : List TagName) (n : Nat) :
      visibleIn opened (ofText (revealedIn opened n (consChar c (ofText cs)))) =
        min n (visibleIn opened (consChar c (ofText cs))) := by
    cases n with
    | zero => rw [revealedIn_zero, ofText, visibleIn, Nat.zero_min]
    | succ n =>
      -- What is left after the character is cut short, and no tag begins by being cut.
      have cut : revealedIn opened n (ofText cs) <+: cs := by
        have := revealedIn_isPrefix opened n (ofText cs)
        rwa [flatMap_raw_ofText] at this
      rw [revealedIn_consChar, ofText_char fun hc => Tag.read_of_isPrefix (h hc) cut,
        visibleIn_consChar, visibleIn_consChar, ih]
      omega
  fun_induction ofText cs generalizing opened n with
  | case1 => simp [revealedIn, ofText, visibleIn]
  | case2 cs t rest h ih =>
    simp only [revealedIn]
    split
    next hn => rw [hn, ofText, visibleIn, Nat.zero_min]
    next hn =>
      split
      next opened' hs => simp only [ofText_raw_append h, visibleIn, hs, ih]
      next hs =>
        simp only [visibleIn, hs]
        split
        next short => rw [visibleIn_take_raw opened h hs short, Nat.min_eq_left (by omega)]
        next long =>
          simp only [ofText_raw_append h, visibleIn, hs, ih]
          omega
  | case3 cs h ih => exact character '<' cs (fun _ => h) ih opened n
  | case4 c cs h ih => exact character c cs (fun hc => absurd hc h) ih opened n

/-- More characters reveal more of the text. -/
theorem revealedIn_isPrefix_of_le (opened : List TagName) {n m : Nat} (h : n ≤ m)
    (ps : List Piece) : revealedIn opened n ps <+: revealedIn opened m ps := by
  fun_induction revealedIn opened n ps generalizing m with
  | case1 => exact List.nil_prefix
  | case2 opened n cs ps short =>
    rw [revealedIn]
    split
    next => exact List.take_prefix_take_left h
    next => exact (cs.take_prefix n).trans (List.prefix_append _ _)
  | case3 opened n cs ps long ih =>
    rw [revealedIn, if_neg (by omega)]
    exact (List.prefix_append_right_inj cs).mpr (ih (by omega))
  | case4 => exact List.nil_prefix
  | case5 opened n t ps hn opened' hs ih =>
    simp only [revealedIn, hs, if_neg (show ¬m = 0 by omega)]
    exact (List.prefix_append_right_inj t.raw).mpr (ih h)
  | case6 opened n t ps hn hs short =>
    simp only [revealedIn, hs, if_neg (show ¬m = 0 by omega)]
    split
    next => exact List.take_prefix_take_left h
    next => exact (t.raw.take_prefix n).trans (List.prefix_append _ _)
  | case7 opened n t ps hn hs long ih =>
    simp only [revealedIn, hs, if_neg (show ¬m = 0 by omega),
      if_neg (show ¬m ≤ t.raw.length by omega)]
    exact (List.prefix_append_right_inj t.raw).mpr (ih (by omega))

/-- Past the visible length, all of the text is revealed. -/
theorem revealedIn_of_lt (opened : List TagName) {n : Nat} (ps : List Piece)
    (h : visibleIn opened ps < n) : revealedIn opened n ps = ps.flatMap raw := by
  fun_induction revealedIn opened n ps with
  | case1 => rfl
  | case2 opened n cs ps short =>
    rw [visibleIn] at h
    omega
  | case3 opened n cs ps long ih =>
    rw [visibleIn] at h
    rw [ih (by omega), List.flatMap_cons]
    rfl
  | case4 => omega
  | case5 opened n t ps hn opened' hs ih =>
    simp only [visibleIn, hs] at h
    rw [ih h, List.flatMap_cons]
    rfl
  | case6 opened n t ps hn hs short =>
    simp only [visibleIn, hs] at h
    omega
  | case7 opened n t ps hn hs long ih =>
    simp only [visibleIn, hs] at h
    rw [ih (by omega), List.flatMap_cons]
    rfl

/-! ## Offsets -/

variable (text : List Char) (n : Nat)

/-- So many characters are revealed, or all there are. -/
theorem visibleLength_revealed :
    visibleLength (revealed text n) = min n (visibleLength text) :=
  visibleIn_revealedIn [] n text

/-- The offset of a later visible position lies further on. -/
theorem rawOffset_lt {n m : Nat} (hlt : n < m) (hm : m ≤ visibleLength text) :
    rawOffset text n < rawOffset text m := by
  obtain ⟨more, hmore⟩ := revealedIn_isPrefix_of_le [] (Nat.le_of_lt hlt) (ofText text)
  have added : more ≠ [] := by
    rintro rfl
    rw [List.append_nil] at hmore
    have same : visibleLength (revealed text n) = visibleLength (revealed text m) :=
      congrArg visibleLength hmore
    rw [visibleLength_revealed, visibleLength_revealed] at same
    omega
  have := byteLength_pos added
  unfold rawOffset revealed
  rw [← hmore, byteLength_append]
  omega

/-- Past the visible length, the offset is the end of the text. -/
theorem rawOffset_of_lt {n : Nat} (h : visibleLength text < n) :
    rawOffset text n = byteLength text := by
  have whole : revealed text n = text := by
    unfold revealed
    rw [revealedIn_of_lt [] _ h, flatMap_raw_ofText]
  rw [rawOffset, whole]

/-- The offset of a visible position lies in the text, between two characters and not
inside markup, and the text up to there shows just as many characters, or all there
are. Up to the visible length, later positions have greater offsets; past it, the
offset is the end of the text. -/
theorem rawOffset_exact :
    rawOffset text n ≤ byteLength text ∧
      (∃ pre, takeBytes? (rawOffset text n) text = some pre ∧
        visibleLength pre = min n (visibleLength text)) ∧
      (∀ span ∈ markup text, ¬(span.1 < rawOffset text n ∧ rawOffset text n < span.2)) ∧
      (∀ m, n < m → m ≤ visibleLength text → rawOffset text n < rawOffset text m) ∧
      (visibleLength text < n → rawOffset text n = byteLength text) := by
  have cut := revealed_isPrefix text n
  refine ⟨byteLength_le_of_isPrefix cut,
    ⟨revealed text n, takeBytes?_of_isPrefix cut, visibleLength_revealed text n⟩, ?_,
    fun m => rawOffset_lt text, rawOffset_of_lt text⟩
  intro span hspan
  have outside := revealedIn_outside [] 0 n (ofText text) span hspan
  rw [Nat.zero_add] at outside
  unfold rawOffset revealed
  omega

end VisualNovel.Markup
