import VisualNovel.Text.CharClass

/-!
# Style tags in text

A tag is `<name>`, `<name=value>` or either with a slash before the name. Cutting a
text into tags and the runs between them loses nothing: `pieces_raw` puts the text
together again. Whether a tag counts as markup depends on the tags open where it
stands: it must have a known name, and a closing tag must close the innermost one.
-/

namespace VisualNovel

/-- The names of the tags that style text. -/
inductive TagName
  | bold
  | italic
  | underline
  | strikethrough
  | color
  | size
  deriving DecidableEq, Repr

namespace TagName

def text : TagName → String
  | bold => "b"
  | italic => "i"
  | underline => "u"
  | strikethrough => "s"
  | color => "color"
  | size => "size"

def all : List TagName := [bold, italic, underline, strikethrough, color, size]

/-- The tag name a word spells in any case. Lowering its ASCII letters is enough:
no other letter has the lower case of a letter in these names. -/
def ofText? (word : List Char) : Option TagName :=
  all.find? fun n => n.text.toList == word.map Char.toLower

end TagName

/-- A tag as it stands in a text. -/
structure Tag where
  closing : Bool
  name : List Char
  param : Option (List Char)
  deriving DecidableEq, Repr

namespace Tag

/-- The text of a tag. -/
def raw (t : Tag) : List Char :=
  '<' :: (if t.closing then ['/'] else []) ++ t.name
    ++ (match t.param with
      | some p => '=' :: p
      | none => [])
    ++ ['>']

/-- Reads the rest of a tag after its name, and the text after the tag. The value
is not empty and reaches to the next `>`. -/
def readEnd (closing : Bool) (name : List Char) : List Char → Option (Tag × List Char)
  | '>' :: rest => some (⟨closing, name, none⟩, rest)
  | '=' :: cs =>
    let param := cs.takeWhile (· ≠ '>')
    match cs.dropWhile (· ≠ '>') with
    | _ :: rest => if param = [] then none else some (⟨closing, name, some param⟩, rest)
    | [] => none
  | _ => none

/-- Reads the name and the rest of a tag. -/
def readName (closing : Bool) (cs : List Char) : Option (Tag × List Char) :=
  let name := cs.takeWhile Text.isWordChar
  if name = [] then none else readEnd closing name (cs.dropWhile Text.isWordChar)

/-- Reads a tag from the text after its `<`, and answers the text after the tag. -/
def read : List Char → Option (Tag × List Char)
  | '/' :: cs => readName true cs
  | cs => readName false cs

theorem dropWhile_ne_cons {x c : Char} {cs rest : List Char}
    (h : cs.dropWhile (· ≠ x) = c :: rest) : c = x := by
  induction cs with
  | nil => simp at h
  | cons d ds ih =>
    by_cases hd : d = x
    · subst hd
      rw [List.dropWhile_cons_of_neg (by simp)] at h
      exact (List.cons.inj h).1.symm
    · rw [List.dropWhile_cons_of_pos (by simpa using hd)] at h
      exact ih h

/-- The characters of a tag that was read and those behind it are the characters before. -/
theorem readEnd_raw {closing : Bool} {name cs rest : List Char} {t : Tag}
    (h : readEnd closing name cs = some (t, rest)) :
    t.raw ++ rest = '<' :: (if closing then ['/'] else []) ++ name ++ cs := by
  unfold readEnd at h
  split at h
  · simp only [Option.some.injEq, Prod.mk.injEq] at h
    obtain ⟨rfl, rfl⟩ := h
    simp [raw]
  · next ds =>
    split at h
    · next c r hd =>
      dsimp only at h
      split at h
      · simp at h
      · simp only [Option.some.injEq, Prod.mk.injEq] at h
        obtain ⟨rfl, rfl⟩ := h
        have hc := dropWhile_ne_cons hd
        have := List.takeWhile_append_dropWhile (p := (· ≠ '>')) (l := ds)
        rw [hd, hc] at this
        simp only [raw, List.append_assoc, List.cons_append, List.nil_append]
        rw [this]
    · simp at h
  · simp at h

/-- A tag that was read, with the text after it, is the text it was read from. -/
theorem read_raw {cs rest : List Char} {t : Tag} (h : read cs = some (t, rest)) :
    t.raw ++ rest = '<' :: cs := by
  have key : ∀ {closing : Bool} {ds : List Char}, readName closing ds = some (t, rest) →
      t.raw ++ rest = '<' :: (if closing then ['/'] else []) ++ ds := by
    intro closing ds hr
    unfold readName at hr
    dsimp only at hr
    split at hr
    · simp at hr
    · rw [readEnd_raw hr, List.append_assoc, List.takeWhile_append_dropWhile]
  unfold read at h
  split at h
  · simpa using key h
  · simpa using key h

/-- What follows a tag is shorter than what the tag was read from. -/
theorem read_length {cs rest : List Char} {t : Tag} (h : read cs = some (t, rest)) :
    rest.length < cs.length + 1 := by
  have := congrArg List.length (read_raw h)
  simp only [raw, List.length_append, List.length_cons] at this
  omega

end Tag

/-- A text cut at its tags. -/
inductive Piece
  | run (text : List Char)
  | tag (t : Tag)
  deriving DecidableEq, Repr

namespace Piece

/-- The text of a piece. -/
def raw : Piece → List Char
  | run cs => cs
  | tag t => t.raw

/-- Prepends a character to the run in front, or a run of its own to a tag. -/
def consChar (c : Char) : List Piece → List Piece
  | run cs :: ps => run (c :: cs) :: ps
  | ps => run [c] :: ps

/-- The tags of a text and the runs between them. A `<` that begins no tag is an
ordinary character. -/
def ofText : List Char → List Piece
  | [] => []
  | c :: cs =>
    if c = '<' then
      match _read : Tag.read cs with
      | some (t, rest) => tag t :: ofText rest
      | none => consChar c (ofText cs)
    else consChar c (ofText cs)
termination_by cs => cs.length
decreasing_by
  · have := Tag.read_length (by assumption); simp only [List.length_cons]; omega
  · simp
  · simp

theorem flatMap_raw_consChar (c : Char) (ps : List Piece) :
    (consChar c ps).flatMap raw = c :: ps.flatMap raw := by
  unfold consChar
  split <;> simp [raw]

/-- Cutting a text loses nothing. -/
theorem flatMap_raw_ofText (cs : List Char) : (ofText cs).flatMap raw = cs := by
  fun_induction ofText cs with
  | case1 => rfl
  | case2 cs t rest h ih => simp [raw, ih, Tag.read_raw h]
  | case3 cs h ih => rw [flatMap_raw_consChar, ih]
  | case4 c cs h ih => rw [flatMap_raw_consChar, ih]

end Piece

/-- The open tags after a tag, innermost first, if the tag counts as markup. -/
def Tag.step (opened : List TagName) (t : Tag) : Option (List TagName) :=
  match TagName.ofText? t.name with
  | none => none
  | some name =>
    if t.closing then
      match opened with
      | top :: others => if top = name then some others else none
      | [] => none
    else some (name :: opened)

end VisualNovel
