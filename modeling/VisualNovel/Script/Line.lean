import VisualNovel.Script.Node
import VisualNovel.Text.Trim

/-!
# Lines of a script

The script format is line oriented: each line is blank, a comment, the end of a
block, a label, the opening of a choice or of a condition, another directive, or
dialogue. Which block a line stands in is not decided here; the lines of a choice
block are read again from their text.
-/

namespace VisualNovel

open Text

/-- What a line says. -/
inductive LineContent
  | blank
  | comment
  | terminator (t : Terminator)
  | label (name : String)
  | choiceOpen
  | ifOpen (token : String) (params : List String)
  | directive (token : String) (params : List String)
  | dialogue (speaker text : String)
  deriving DecidableEq, Repr, Inhabited

/-- A line of a source: its number from one, its trimmed text and what it says. -/
structure Line where
  number : Nat
  raw : List Char
  content : LineContent
  deriving DecidableEq, Repr

namespace Line

/-- Whether the text begins with a word. -/
def startsWith (word : String) (line : List Char) : Bool := word.toList.isPrefixOf line

/-- The terminator a line begins with. -/
def terminator? (line : List Char) : Option Terminator :=
  if startsWith Terminator.endIf.token line then some .endIf
  else if startsWith Terminator.otherwise.token line then some .otherwise
  else if startsWith Terminator.endChoice.token line then some .endChoice
  else none

/-- A directive word and its parameters, the words of the line. -/
def splitCommand (line : List Char) : String × List String :=
  match words (trim line) with
  | [] => ("", [])
  | w :: ws => (String.ofList w, ws.map String.ofList)

/-- The text without one pair of quotes around it. -/
def stripQuotes : List Char → List Char
  | '"' :: rest => if rest.getLast? = some '"' then rest.dropLast else '"' :: rest
  | cs => cs

/-- Dialogue: `[speaker] "text"`, or bare text without a speaker. -/
def splitDialogue (line : List Char) : String × String :=
  match line with
  | '[' :: rest =>
    if ']' ∈ rest then
      (String.ofList (rest.takeWhile (· ≠ ']')),
        String.ofList (stripQuotes (trim ((rest.dropWhile (· ≠ ']')).drop 1))))
    else ("", String.ofList line)
  | _ => ("", String.ofList line)

/-- An option of a choice: `"text" >> target`. -/
def splitArm (line : List Char) : Option ChoiceOption :=
  (splitAtArrows line).map fun (text, target) =>
    ⟨String.ofList (stripQuotes (trim text)), String.ofList (trim target)⟩

/-- What a trimmed line says; the first rule that applies decides. -/
def classify (line : List Char) : LineContent :=
  if line = [] then .blank
  else if startsWith "//" line then .comment
  else match terminator? line with
    | some t => .terminator t
    | none =>
      match line with
      | '*' :: name => .label (String.ofList (trim name))
      | _ =>
        if startsWith "@choice" line then .choiceOpen
        else if startsWith "@if" line then
          let (token, params) := splitCommand line
          .ifOpen token params
        else if startsWith "@" line then
          let (token, params) := splitCommand line
          .directive token params
        else
          let (speaker, text) := splitDialogue line
          .dialogue speaker text

/-- Reads one line of a source. -/
def read (number : Nat) (text : List Char) : Line :=
  { number := number, raw := trim text, content := classify (trim text) }

/-- Reads lines, numbered from `start` on. -/
def readFrom (start : Nat) : List (List Char) → List Line
  | [] => []
  | t :: ts => read start t :: readFrom (start + 1) ts

/-- Reads the lines of a source. -/
def readAll (texts : List (List Char)) : List Line := readFrom 1 texts

end Line

end VisualNovel
