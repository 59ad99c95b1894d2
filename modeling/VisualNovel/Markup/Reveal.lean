import VisualNovel.Markup.Tag

/-!
# Visible positions

Tags that count as markup have no visible length; all other characters count one
each. `revealed n` is the part of a text that shows its first `n` visible
characters: it ends right after the last of them, in front of any tag that follows,
and is the whole text once `n` passes the visible length.
-/

namespace VisualNovel.Markup

/-- Number of visible characters of a cut text inside the given open tags. -/
def visibleIn (opened : List TagName) : List Piece → Nat
  | [] => 0
  | .run cs :: ps => cs.length + visibleIn opened ps
  | .tag t :: ps =>
    match t.step opened with
    | some opened' => visibleIn opened' ps
    | none => t.raw.length + visibleIn opened ps

/-- Number of visible characters of a text. -/
def visibleLength (text : List Char) : Nat := visibleIn [] (Piece.ofText text)

/-- The part of a cut text that shows its first `n` visible characters. -/
def revealedIn (opened : List TagName) (n : Nat) : List Piece → List Char
  | [] => []
  | .run cs :: ps =>
    if n ≤ cs.length then cs.take n else cs ++ revealedIn opened (n - cs.length) ps
  | .tag t :: ps =>
    if n = 0 then []
    else match t.step opened with
      | some opened' => t.raw ++ revealedIn opened' n ps
      | none =>
        if n ≤ t.raw.length then t.raw.take n
        else t.raw ++ revealedIn opened (n - t.raw.length) ps

/-- The part of a text that shows its first `n` visible characters. -/
def revealed (text : List Char) (n : Nat) : List Char := revealedIn [] n (Piece.ofText text)

/-- Number of bytes of a text in UTF-8. -/
def byteLength : List Char → Nat
  | [] => 0
  | c :: cs => c.utf8Size + byteLength cs

/-- The byte offset in a text at which its first `n` visible characters end. -/
def rawOffset (text : List Char) (n : Nat) : Nat := byteLength (revealed text n)

/-- What is shown of the pieces is a beginning of their text. -/
theorem revealedIn_isPrefix (opened : List TagName) (n : Nat) (ps : List Piece) :
    revealedIn opened n ps <+: ps.flatMap Piece.raw := by
  fun_induction revealedIn opened n ps with
  | case1 => simp
  | case2 opened n cs ps h =>
    exact (List.take_prefix _ _).trans (List.prefix_append _ _)
  | case3 opened n cs ps h ih => simpa [Piece.raw] using ih
  | case4 => exact List.nil_prefix
  | case5 opened n t ps h opened' hs ih => simpa [Piece.raw] using ih
  | case6 opened n t ps h hs hn =>
    exact (List.take_prefix _ _).trans (List.prefix_append _ _)
  | case7 opened n t ps h hs hn ih => simpa [Piece.raw] using ih

/-- What is revealed is a beginning of the text. -/
theorem revealed_isPrefix (text : List Char) (n : Nat) : revealed text n <+: text := by
  have := revealedIn_isPrefix [] n (Piece.ofText text)
  rwa [Piece.flatMap_raw_ofText] at this

end VisualNovel.Markup
