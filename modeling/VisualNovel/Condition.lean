import VisualNovel.Table
import VisualNovel.Number.Arith
import VisualNovel.Number.Decimal
import VisualNovel.Text.Integer

/-!
# Variables and conditions

Variables hold text. A comparison or a sum is numeric when both sides read as
numbers; otherwise two texts can only be equal or not, and be joined.
-/

namespace VisualNovel

/-- The variables of a session by name. -/
abbrev Variables := Table String

/-- Whether a name refers to a variable. -/
def isVariable (name : String) : Bool := name.toList.head? == some '$'

/-- A text read as a number. -/
def number? (s : String) : Option Double := Fp.read? s.toList

/-- Text of a number: a whole number below two to the 63 as an integer, so that
negative zero loses its sign, and any other in the fewest decimal digits. -/
def formatNumber (x : Double) : String :=
  if x.isWhole && x.toRat.num.natAbs ≤ Text.maxInt64 then toString x.toRat.num else x.toDecimal

/-- The text a name stands for: the value of a variable, empty when it has none,
or else the name itself. -/
def valueOf (vars : Variables) (name : String) : String :=
  if isVariable name then (vars.find? name).getD "" else name

/-- Compares two numbers; an operator that is none of the six holds for none. -/
def compareNumbers (op : String) (a b : Double) : Bool :=
  if op = "==" then a.numEq b
  else if op = "!=" then !a.numEq b
  else if op = ">" then b.less a
  else if op = "<" then a.less b
  else if op = ">=" then b.lessEq a
  else if op = "<=" then a.lessEq b
  else false

/-- Compares two texts, which are only equal or not. -/
def compareTexts (op : String) (a b : String) : Bool :=
  if op = "==" then a = b
  else if op = "!=" then a ≠ b
  else false

/-- Whether `name op value` holds. -/
def holds (vars : Variables) (name op value : String) : Bool :=
  let current := valueOf vars name
  match number? current, number? value with
  | some a, some b => compareNumbers op a b
  | _, _ => compareTexts op current value

/-- The new value of a variable that has the value `current`, or nothing when it
keeps it: subtraction needs two numbers, and other operators do nothing. -/
def assigned (current op value : String) : Option String :=
  if op = "=" then some value
  else if op = "+=" then
    match number? current, number? value with
    | some a, some b => some (formatNumber (a + b))
    | _, _ => some (current ++ value)
  else if op = "-=" then
    match number? current, number? value with
    | some a, some b => some (formatNumber (a - b))
    | _, _ => none
  else none

/-- Carries out `name op value`. Only variables can be assigned to. -/
def assign (vars : Variables) (name op value : String) : Variables :=
  if isVariable name then
    match assigned (valueOf vars name) op value with
    | some text => vars.insert name text
    | none => vars
  else vars

end VisualNovel
