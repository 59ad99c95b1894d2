import VisualNovel.Pattern.Basic

/-!
# Nesting in patterns

Groups, repetitions, sequences, choices and classes nest in each other up to a depth.
-/

namespace VisualNovel.Pattern

mutual

/-- The first part of a set that lies deeper than the limit, when so many levels are
around the set. -/
def ClassSet.tooDeep? (depth : Nat) : ClassSet → Option Span
  | .nested s _ set =>
    if maxNesting ≤ depth then some s else ClassSet.tooDeep? (depth + 1) set
  | .union s items =>
    if maxNesting ≤ depth then some s else ClassSet.tooDeepIn? (depth + 1) items
  | .combined s left right =>
    if maxNesting ≤ depth then some s
    else (ClassSet.tooDeep? (depth + 1) left).or (ClassSet.tooDeep? (depth + 1) right)
  | _ => none

/-- The first part of several sets that lies deeper than the limit. -/
def ClassSet.tooDeepIn? (depth : Nat) : List ClassSet → Option Span
  | [] => none
  | set :: rest => (ClassSet.tooDeep? depth set).or (ClassSet.tooDeepIn? depth rest)

end

mutual

/-- The first part of a pattern that lies deeper than the limit, when so many levels are
around the pattern. -/
def tooDeep? (depth : Nat) : Pattern → Option Span
  | .bracketed s _ set =>
    if maxNesting ≤ depth then some s else ClassSet.tooDeep? (depth + 1) set
  | .repeated s _ _ p => if maxNesting ≤ depth then some s else tooDeep? (depth + 1) p
  | .group s _ _ p => if maxNesting ≤ depth then some s else tooDeep? (depth + 1) p
  | .sequence s items => if maxNesting ≤ depth then some s else tooDeepIn? (depth + 1) items
  | .choice s branches => if maxNesting ≤ depth then some s else tooDeepIn? (depth + 1) branches
  | _ => none

/-- The first part of several patterns that lies deeper than the limit. -/
def tooDeepIn? (depth : Nat) : List Pattern → Option Span
  | [] => none
  | p :: rest => (tooDeep? depth p).or (tooDeepIn? depth rest)

end

end VisualNovel.Pattern
