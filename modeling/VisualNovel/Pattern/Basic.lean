import VisualNovel.Pattern.Fault

/-!
# Patterns

A pattern describes texts: characters, classes of characters and places between them,
in sequence, in choice, repeated and in groups. Each part knows where it stands, for
what is said about it.
-/

namespace VisualNovel

namespace Pattern

/-- A switch that changes how the rest of a group is understood. -/
inductive Flag
  | caseless
  | manyLines
  | dotAll
  | lazy
  | unicode
  | carriageReturns
  /-- Blanks and comments in the pattern do not count. -/
  | blanks
  deriving DecidableEq, Repr

/-- Switches turned on and off. -/
abbrev Flags := List (Flag × Bool)

/-- A character that stands for itself. One written by two hexadecimal digits may be a
byte. -/
structure Literal where
  span : Span
  char : Char
  mayBeByte : Bool := false
  deriving DecidableEq, Repr

/-- What a class of Unicode is asked for: a name, or a value of a property. -/
inductive Property
  | named (name : List Char)
  | valued (name value : List Char)
  deriving DecidableEq, Repr

/-- The classes with a letter of their own. -/
inductive ShortClass
  | digit
  | blank
  | word
  deriving DecidableEq, Repr

/-- What stands in a class in brackets. -/
inductive ClassSet
  | empty (span : Span)
  | literal (l : Literal)
  | range (span : Span) (low high : Literal)
  /-- A class of ASCII by its name in colons. -/
  | ascii (span : Span) (negated : Bool)
  | short (span : Span) (negated : Bool) (kind : ShortClass)
  | property (span : Span) (p : Property)
  | nested (span : Span) (negated : Bool) (set : ClassSet)
  | union (span : Span) (items : List ClassSet)
  /-- Two sets with an operator between them. -/
  | combined (span : Span) (left right : ClassSet)
  deriving Repr

/-- Where a set stands. -/
def ClassSet.span : ClassSet → Span
  | .literal l => l.span
  | .empty s | .range s .. | .ascii s .. | .short s .. | .property s .. | .nested s ..
  | .union s .. | .combined s .. => s

end Pattern

open Pattern in
/-- A pattern. -/
inductive Pattern
  | empty (span : Span)
  | flags (span : Span) (fs : Flags)
  | literal (l : Literal)
  | dot (span : Span)
  /-- A place between characters: the start of a line, the edge of a word and the like. -/
  | boundary (span : Span)
  | short (span : Span) (negated : Bool) (kind : ShortClass)
  | property (span : Span) (p : Property)
  | bracketed (span : Span) (negated : Bool) (set : ClassSet)
  /-- Repeated so often at least, and at most if there is a most. -/
  | repeated (span : Span) (least : Nat) (most : Option Nat) (p : Pattern)
  | group (span : Span) (captures : Bool) (fs : Flags) (p : Pattern)
  | sequence (span : Span) (items : List Pattern)
  | choice (span : Span) (branches : List Pattern)
  deriving Repr

namespace Pattern

/-- Where a pattern stands. -/
def span : Pattern → Span
  | .literal l => l.span
  | .empty s | .flags s .. | .dot s | .boundary s | .short s .. | .property s ..
  | .bracketed s .. | .repeated s .. | .group s .. | .sequence s .. | .choice s .. => s

end Pattern

end VisualNovel
