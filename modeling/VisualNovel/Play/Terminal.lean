import VisualNovel.Play.Pump
import VisualNovel.Markup.Styled
import VisualNovel.Text.Utf8

/-!
# Playing in a terminal

Lines are printed as they come, without markup, and the reader answers by typing a
line: an empty one goes on, a number picks an option, `exit`, `:save N` and `:load N`
are commands. A line that means nothing is asked for again. The end of the input, and
a line that is not text, end the session.
-/

namespace VisualNovel

/-- What the reader is asked. -/
inductive Question
  /-- To go on after a line. -/
  | goOn
  /-- To pick one of so many options. -/
  | pick (count : Nat)
  deriving DecidableEq, Repr

namespace Question

/-- The prompt. -/
def text : Question → String
  | goOn => "> "
  | pick _ => "Select> "

/-- The slot number after a command word. -/
def slot? (rest : List Char) : Option Nat :=
  (Text.readNat Text.maxWord32 (Text.trim rest)).toOption

/-- The command in a line without blanks around it. -/
def command? (line : List Char) : Option Answer :=
  if line = [] then some .proceed
  else if line.map Char.toLower = "exit".toList then some .exit
  else if ":save".toList.isPrefixOf line then (slot? (line.drop 5)).map .save
  else if ":load".toList.isPrefixOf line then (slot? (line.drop 5)).map .load
  else none

/-- The option a line picks by its number, counted from one. -/
def option? (count : Nat) (line : List Char) : Option Answer :=
  match Text.readNat Text.maxWord64 line with
  | .ok n => if 1 ≤ n ∧ n ≤ count then some (.choose (n - 1)) else none
  | .error _ => none

/-- What a typed line answers, if anything. -/
def judge (q : Question) (line : List Char) : Option Answer :=
  let line := Text.trim line
  match q with
  | goOn => command? line
  | pick count =>
    (option? count line).or ((command? line).filter (· ≠ .proceed))

/-- What the next line of the input answers; there is none at the end, and none if it
is not text. -/
def answer? (q : Question) : Option String → Option Answer
  | none => some .exit
  | some line => q.judge line.toList

end Question

/-- A terminal: printing a line, and asking until the reader answers. -/
structure Console (m : Type → Type) where
  say : String → m Unit
  ask : Question → m Answer

namespace Console

variable {m : Type → Type} [Monad m]

/-- Text without its markup. -/
def plain (s : String) : String := String.ofList (Markup.plain s.toList)

/-- The lines that list options, numbered from one. -/
def optionLines (options : List String) : List String :=
  options.zipIdx.map fun (o, i) => "  [" ++ toString (i + 1) ++ "] " ++ plain o

/-- Shows a cue, and asks for an answer to a line or a choice. -/
def render (c : Console m) (cue : Cue) : m (Option Answer) :=
  match cue with
  | .showText speaker text => do
    c.say (if speaker = "" then plain text else "[" ++ speaker ++ "] " ++ plain text)
    some <$> c.ask .goOn
  | .showChoices options => do
    (optionLines options).forM c.say
    some <$> c.ask (.pick options.length)
  | .backgroundChanged name _ => do
    c.say ("[Background] " ++ name.getD "-")
    pure none
  | .preload _ _ => pure none
  | .finished => do
    c.say "[End]"
    pure none

/-- Asks for an answer while the player waits. -/
def prompt (c : Console m) (state : PlayerState) (stage : Stage) : m (Option Answer) :=
  match state with
  | .waitingForChoice => some <$> c.ask (.pick stage.choices.length)
  | _ => some <$> c.ask .goOn

/-- The renderer of a terminal. -/
def renderer (c : Console m) : Renderer m where
  render cue _ := c.render cue
  prompt state stage := c.prompt state stage

end Console

/-- A terminal session on paper: the lines still to be typed, nothing for one that is
not text, all that was printed, and all that was reported beside it. -/
structure Transcript where
  input : List (Option String)
  output : String
  errors : String

namespace Transcript

/-- The session before anything is typed, with the lines of an input stream. -/
def ofInput (bytes : List UInt8) : Transcript where
  input := (Text.byteLines bytes).map Text.ofBytes?
  output := ""
  errors := ""

/-- The session with more text printed. -/
def print (t : Transcript) (text : String) : Transcript := { t with output := t.output ++ text }

/-- The session with more text reported. -/
def report (t : Transcript) (text : String) : Transcript := { t with errors := t.errors ++ text }

/-- Asks until a line answers: the answer, the lines left, and what was printed. -/
def askLines (q : Question) : List (Option String) → Answer × List (Option String) × String
  | [] => (.exit, [], q.text)
  | line :: lines =>
    match q.answer? line with
    | some a => (a, lines, q.text)
    | none =>
      let (a, rest, printed) := askLines q lines
      (a, rest, q.text ++ "invalid\n" ++ printed)

/-- Asks until a line answers. -/
def ask (t : Transcript) (q : Question) : Answer × Transcript :=
  let (a, rest, printed) := askLines q t.input
  (a, { t with input := rest, output := t.output ++ printed })

/-- The terminal on paper, beside any other state. -/
def console {σ : Type} : Console (StateM (Transcript × σ)) where
  say line := modify fun (t, s) => (t.print (line ++ "\n"), s)
  ask q := modifyGet fun (t, s) =>
    let (a, t) := t.ask q
    (a, t, s)

end Transcript

end VisualNovel
