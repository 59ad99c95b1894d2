import VisualNovel.Markup.Tag
import VisualNovel.Markup.Color
import VisualNovel.Number.Decimal
import VisualNovel.Text.Trim

/-!
# Styled text

Open tags scope over the text that follows them. Styling a text gives its runs with
the style of the innermost scope; neighbouring runs of equal style are one span. A
tag that is not markup is text, and so is a size that is not a number.
-/

namespace VisualNovel

/-- How a run of text looks. -/
structure Style where
  bold : Bool
  italic : Bool
  underline : Bool
  strikethrough : Bool
  color : Option Color
  size : Option Single
  deriving DecidableEq

namespace Style

/-- The style outside all tags. -/
def plain : Style := ⟨false, false, false, false, none, none⟩

instance : Inhabited Style := ⟨plain⟩

/-- Numeric equality of sizes. -/
def sameSize : Option Single → Option Single → Bool
  | none, none => true
  | some x, some y => x.numEq y
  | _, _ => false

/-- Whether two styles look the same; a size that is not a number looks like none. -/
def same (s t : Style) : Bool :=
  s.bold == t.bold && s.italic == t.italic && s.underline == t.underline
    && s.strikethrough == t.strikethrough && s.color == t.color && sameSize s.size t.size

/-- The style inside a tag that opens where the style is `current`. A colour that
cannot be read keeps the current one; a size that cannot be read opens nothing. -/
def inside (current : Style) (name : TagName) (param : Option (List Char)) : Option Style :=
  match name with
  | .bold => some { current with bold := true }
  | .italic => some { current with italic := true }
  | .underline => some { current with underline := true }
  | .strikethrough => some { current with strikethrough := true }
  | .color => some { current with color := (param.bind Color.parseHex).or current.color }
  | .size =>
    (param.bind fun p => Fp.read? (Text.trim p)).map fun size =>
      { current with size := some size }

end Style

/-- A run of text with its style. -/
structure Span where
  text : List Char
  style : Style
  deriving DecidableEq

namespace Markup

/-- The tags open at a point of a text, and the styles of their scopes with the
style outside all of them at the bottom, both innermost first. -/
structure Scopes where
  opened : List TagName
  styles : List Style
  deriving DecidableEq

namespace Scopes

/-- Before the text. -/
def start : Scopes := ⟨[], [Style.plain]⟩

/-- The style of the innermost scope. -/
def current (s : Scopes) : Style := s.styles.headD Style.plain

/-- The scopes after a tag, if the tag is markup. -/
def step (s : Scopes) (t : Tag) : Option Scopes :=
  match TagName.ofText? t.name with
  | none => none
  | some name =>
    if t.closing then
      match s.opened with
      | top :: others => if top = name then some ⟨others, s.styles.drop 1⟩ else none
      | [] => none
    else (s.current.inside name t.param).map fun style => ⟨name :: s.opened, style :: s.styles⟩

end Scopes

/-- The runs of a cut text with their styles. -/
def runs (s : Scopes) : List Piece → List Span
  | [] => []
  | .run cs :: ps => ⟨cs, s.current⟩ :: runs s ps
  | .tag t :: ps =>
    match s.step t with
    | some s' => runs s' ps
    | none => ⟨t.raw, s.current⟩ :: runs s ps

/-- Joins neighbouring runs that look the same. -/
def merge : List Span → List Span
  | [] => []
  | r :: rs =>
    match merge rs with
    | [] => [r]
    | s :: ss => if r.style.same s.style then ⟨r.text ++ s.text, r.style⟩ :: ss else r :: s :: ss

/-- The spans of a text. -/
def styled (text : List Char) : List Span := merge (runs .start (Piece.ofText text))

/-- The text without its markup. -/
def plain (text : List Char) : List Char := (styled text).flatMap Span.text

end Markup

end VisualNovel
