import VisualNovel.Text.Integer

/-!
# Arguments

A command word, a script file and options, in any order. What is neither an option nor
the first or second other word is passed over.
-/

namespace VisualNovel

/-- What is asked for on the command line. -/
structure Arguments where
  command : String
  file : String
  /-- The node of the root to start at. -/
  start : Nat
  /-- Whether ticks follow one another without waiting. -/
  fast : Bool
  /-- Whether log lines stay off the terminal. -/
  quiet : Bool
  deriving DecidableEq, Repr

/-- Why arguments are refused. -/
inductive ArgumentsError
  | helpWanted
  | startWithoutValue
  | startNotIndex (value : String) (cause : Text.IntError)
  | unknownOption (word : String)
  | noCommand
  | noFile
  deriving DecidableEq, Repr

namespace Arguments

/-- How the program is called. -/
def usage : String := "\n".intercalate
  ["usage: novella <command> <file> [options]",
    "",
    "commands:",
    "  play   play a script in the terminal",
    "  check  report labels, unknown directives and unresolved targets",
    "  fmt    print the script in canonical form",
    "  dump   print the scene tree as JSON",
    "",
    "options (play):",
    "  --start N  start at root index N",
    "  --fast     do not wait in real time between ticks",
    "  --quiet    write logs to the log file only"]

end Arguments

/-- The wording of the error. -/
def ArgumentsError.message : ArgumentsError → String
  | helpWanted | noCommand => Arguments.usage
  | startWithoutValue => "--start needs a value"
  | startNotIndex value cause => "invalid start index '" ++ value ++ "': " ++ cause.message
  | unknownOption word => "unknown option '" ++ word ++ "'\n\n" ++ Arguments.usage
  | noFile => "missing script file\n\n" ++ Arguments.usage

namespace Arguments

/-- Reads words into the options set so far and the other words, oldest first. The
first word that is refused decides. -/
def readWords (a : Arguments) (others : List String) :
    List String → Except ArgumentsError (Arguments × List String)
  | [] => .ok (a, others)
  | word :: words =>
    if word = "--start" then
      match words with
      | [] => .error .startWithoutValue
      | value :: words =>
        match Text.readNat Text.maxWord64 value.toList with
        | .ok n => readWords { a with start := n } others words
        | .error cause => .error (.startNotIndex value cause)
    else if word = "--fast" then readWords { a with fast := true } others words
    else if word = "--quiet" then readWords { a with quiet := true } others words
    else if word = "-h" ∨ word = "--help" then .error .helpWanted
    else if "--".toList.isPrefixOf word.toList then .error (.unknownOption word)
    else readWords a (others ++ [word]) words

/-- Reads the words of a command line. -/
def ofWords (words : List String) : Except ArgumentsError Arguments := do
  match ← readWords ⟨"", "", 0, false, false⟩ [] words with
  | (_, []) => .error .noCommand
  | (_, [_]) => .error .noFile
  | (a, command :: file :: _) => .ok { a with command := command, file := file }

end Arguments

end VisualNovel
