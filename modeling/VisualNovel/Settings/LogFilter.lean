import VisualNovel.Pattern.Problem

/-!
# Log filters

A log filter lists, between commas, a level, a module, or a module with its level after
an equals sign; a pattern for the lines may follow after a slash. Parts that say
nothing of the kind are passed over and reported, and so is a pattern that cannot be
searched for.
-/

namespace VisualNovel.LogFilter

/-- The words for levels, in any case. -/
def levels : List String := ["off", "error", "warn", "info", "debug", "trace"]

/-- Whether a text is the word for a level. -/
def isLevel (cs : List Char) : Bool := levels.contains (String.ofList (cs.map Char.toLower))

/-- The text at fault in one part of the list, if any. -/
def fault? (part : List Char) : Option (List Char) :=
  match Text.splitBy (· = '=') part with
  | [] | [_] => none
  | [_, level] =>
    let level := Text.trim level
    if level = [] ∨ isLevel level then none else some level
  | _ => some part

/-- What is reported about a text at fault. -/
def report (fault : List Char) : String := "invalid logging spec '" ++ String.ofList fault ++ "'"

/-- What is reported about a pattern. -/
def patternReport? (pattern : List Char) : Option String :=
  (Pattern.problem? pattern).map fun p => "invalid regex filter - " ++ p.message pattern

/-- What is reported about a filter. -/
def problems (filter : String) : List String :=
  match Text.splitBy (· = '/') filter.toList with
  | list :: rest =>
    if rest.length ≤ 1 then
      ((Text.splitBy (· = ',') list).map Text.trim).filterMap (fun part =>
        (fault? part).map report)
        ++ rest.filterMap patternReport?
    else [report filter.toList ++ " (too many '/'s)"]
  | [] => []

end VisualNovel.LogFilter
