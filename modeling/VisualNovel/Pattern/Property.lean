import VisualNovel.Pattern.Basic
import VisualNovel.Pattern.PropertyTable

/-!
# Properties in patterns

A class of Unicode is asked for by the name of a property that characters have or have
not, of a general category or of a script, or by a property and one of its values.
Names are compared without regard to case, blanks, dashes and underscores.
-/

namespace VisualNovel.Pattern

/-- A name without what does not count in it: `is` in front, blanks, dashes,
underscores and what is not ASCII. Of `isc` there must be left more than the `c`, which
is another name. -/
def plainName (name : List Char) : String :=
  let plain (cs : List Char) : List Char :=
    (cs.filter fun c => c.toNat < 128 && c ≠ ' ' && c ≠ '_' && c ≠ '-').map Char.toLower
  let hasIs := (name.take 2).map Char.toLower = ['i', 's']
  let kept := plain (if hasIs then name.drop 2 else name)
  String.ofList (if hasIs ∧ kept = ['c'] then ['i', 's', 'c'] else kept)

/-- Names of categories and scripts that have no characters of their own to offer. -/
def hollowNames : List String :=
  ["cs", "surrogate", "hrkt", "katakanaorhiragana", "unknown", "zzzz"]

/-- The values that are known of a property, where there are any. -/
def valueNames? (property : String) : Option (List String) :=
  if ["gc", "generalcategory"].contains property then some categoryNames
  else if ["sc", "script", "scx", "scriptextensions"].contains property then some scriptNames
  else if property = "age" then some ageNames
  else if ["gcb", "graphemeclusterbreak"].contains property then some clusterNames
  else if ["wb", "wordbreak"].contains property then some wordNames
  else if ["sb", "sentencebreak"].contains property then some sentenceNames
  else if binaryNames.contains property || otherNames.contains property then some []
  else none

/-- Why there is no such class, if there is none. -/
def Property.cause? : Property → Option Cause
  | .named name =>
    let name := plainName name
    if binaryNames.contains name || categoryNames.contains name || scriptNames.contains name then
      none
    else if hollowNames.contains name then some .propertyValueUnknown
    else some .propertyUnknown
  | .valued name value =>
    match valueNames? (plainName name) with
    | none => some .propertyUnknown
    | some values =>
      if values.contains (plainName value) then none else some .propertyValueUnknown

end VisualNovel.Pattern
