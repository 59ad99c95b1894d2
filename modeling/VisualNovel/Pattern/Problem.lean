import VisualNovel.Pattern.Nesting
import VisualNovel.Pattern.Read
import VisualNovel.Pattern.Report
import VisualNovel.Pattern.Room

/-!
# What is wrong with a pattern

A pattern must be readable and not nest too deep, each part of it must have a meaning,
and its automaton must not take too much room, in this order.
-/

namespace VisualNovel.Pattern

/-- Why a pattern cannot be searched for. -/
inductive Problem
  | fault (f : Fault)
  | tooLarge
  deriving DecidableEq, Repr

/-- The wording of a problem with a pattern. -/
def Problem.message (text : List Char) : Problem → String
  | .fault f => f.report text
  | .tooLarge => "Compiled regex exceeds size limit of " ++ toString maxBytes ++ " bytes."

/-- The room of the automaton of a pattern, if the pattern has a meaning. -/
def roomOf (text : List Char) : Except Fault Nat := do
  let p ← read text
  match tooDeep? 0 p with
  | some span => refuse .tooDeep span
  | none =>
    let (r, _) ← measure true p
    pure (r.bytes + frameBytes)

/-- The problem with a pattern, if there is one. -/
def problem? (text : List Char) : Option Problem :=
  match roomOf text with
  | .error f => some (.fault f)
  | .ok bytes => if bytes > maxBytes then some .tooLarge else none

end VisualNovel.Pattern
