import VisualNovel.Pattern.Fault
import VisualNovel.Text.Trim

/-!
# Cursors

A cursor stands before a character of a pattern that is being read. Where blanks and
comments do not count, `skip` passes over them.
-/

namespace VisualNovel.Pattern

/-- A place in a pattern, with what is known there. -/
structure Cursor where
  rest : List Char
  position : Position := {}
  /-- Whether blanks and comments are passed over. -/
  blanks : Bool := false
  /-- The names of groups so far, and where they stand. -/
  names : List (List Char × Span) := []

/-- Passes over blanks, and comments from a number sign to the end of their line. -/
def skipBlanks : Bool → List Char → Position → List Char × Position
  | _, [], p => ([], p)
  | false, c :: cs, p =>
    if Text.isBlank c then skipBlanks false cs (p.after c)
    else if c = '#' then skipBlanks true cs (p.after c)
    else (c :: cs, p)
  | true, c :: cs, p => skipBlanks (c ≠ '\n') cs (p.after c)

namespace Cursor

/-- Nothing, where the cursor stands. -/
def span (c : Cursor) : Span := ⟨c.position, c.position⟩

/-- The character after the cursor. -/
def charSpan (c : Cursor) : Span :=
  match c.rest with
  | [] => c.span
  | ch :: _ => ⟨c.position, c.position.after ch⟩

/-- What lies between a place and the cursor. -/
def since (c : Cursor) (start : Position) : Span := ⟨start, c.position⟩

/-- The cursor one character on. -/
def advance (c : Cursor) : Cursor :=
  match c.rest with
  | [] => c
  | ch :: rest => { c with rest := rest, position := c.position.after ch }

/-- The cursor so many characters on. -/
def advanceBy : Nat → Cursor → Cursor
  | 0, c => c
  | n + 1, c => advanceBy n c.advance

/-- The cursor after blanks and comments that do not count. -/
def skip (c : Cursor) : Cursor :=
  if c.blanks then
    let (rest, position) := skipBlanks false c.rest c.position
    { c with rest, position }
  else c

/-- The cursor before the next character that counts. -/
def next (c : Cursor) : Cursor := c.advance.skip

/-- The cursor after a text, if that stands there. -/
def after? (c : Cursor) (text : String) : Option Cursor :=
  if text.toList.isPrefixOf c.rest then some (advanceBy text.length c) else none

/-- The character after the next one. Blanks before it do not count where they need not,
nor does a number sign with the blanks around it. -/
def peek? (c : Cursor) : Option Char :=
  let rest := c.rest.drop 1
  if c.blanks then
    let shown := match rest.dropWhile Text.isBlank with
      | '#' :: more => (more.dropWhile Text.isBlank).head?
      | other => other.head?
    shown.or rest.head?
  else rest.head?

end Cursor

end VisualNovel.Pattern
