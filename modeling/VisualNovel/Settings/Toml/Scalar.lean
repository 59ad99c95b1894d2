import VisualNovel.Number.Decimal
import VisualNovel.Settings.Toml.Moment
import VisualNovel.Text.Hex
import VisualNovel.Text.Integer

/-!
# Scalars of TOML

Strings, numbers, truth values, dates and times as TOML 1.1 writes them. Strings are
read character by character; all other scalars are one run of characters, which is
judged as a whole.
-/

namespace VisualNovel.Toml

/-- A value without parts. The digits of a number with a fraction are only checked,
since no setting holds one. -/
inductive Scalar
  | text (s : String)
  | integer (i : Int)
  | real
  | boolean (b : Bool)
  | moment (m : Moment)
  deriving DecidableEq, Repr

/-! ## Characters -/

/-- Characters that comments and strings may hold as they are: no controls but the tab. -/
def isPlain (c : Char) : Bool := c = '\t' || (' ' ≤ c && c.toNat ≠ 0x7F)

/-- The text after a line feed, with or without a carriage return before it. -/
def afterNewline? : List Char → Option (List Char)
  | '\n' :: rest => some rest
  | '\r' :: '\n' :: rest => some rest
  | _ => none

def isSpace (c : Char) : Bool := c = ' ' || c = '\t'

/-- The text without spaces and tabs at its start. -/
def skipSpace (cs : List Char) : List Char := cs.dropWhile isSpace

/-! ## Strings -/

/-- The character a short escape stands for. -/
def escape? (c : Char) : Option Char :=
  if c = 'b' then some '\x08'
  else if c = 't' then some '\t'
  else if c = 'n' then some '\n'
  else if c = 'f' then some '\x0c'
  else if c = 'r' then some '\r'
  else if c = 'e' then some '\x1b'
  else if c = '"' ∨ c = '\\' then some c
  else none

/-- How many digits follow the letter of an escape. -/
def escapeDigits (c : Char) : Nat :=
  if c = 'x' then 2 else if c = 'u' then 4 else if c = 'U' then 8 else 0

/-- An escape after its backslash, and the text after it. -/
def readEscape : List Char → Option (Char × List Char)
  | [] => none
  | c :: rest =>
    match escapeDigits c with
    | 0 => (escape? c).map fun d => (d, rest)
    | n =>
      if (rest.take n).length = n then (Text.codePoint? (rest.take n)).map fun d => (d, rest.drop n)
      else none

/-- The text after spaces, tabs and line feeds. A carriage return counts only before a
line feed. -/
def skipBlank : List Char → List Char
  | '\r' :: '\n' :: cs => skipBlank cs
  | c :: cs => if isSpace c || c = '\n' then skipBlank cs else c :: cs
  | [] => []

/-- The lines a backslash at the end of a line joins: all blanks after it. None if
something else follows the backslash on its line. -/
def continuation? (cs : List Char) : Option (List Char) :=
  (afterNewline? (skipSpace cs)).map skipBlank

/-- The rest of a string in quotes, on one line. -/
def readBasic : Nat → List Char → Option (List Char × List Char)
  | 0, _ => none
  | _ + 1, [] => none
  | fuel + 1, c :: cs =>
    if c = '"' then some ([], cs)
    else if c = '\\' then do
      let (d, rest) ← readEscape cs
      let (ds, rest) ← readBasic fuel rest
      pure (d :: ds, rest)
    else if isPlain c then (readBasic fuel cs).map fun (ds, rest) => (c :: ds, rest)
    else none

/-- The end of a string over several lines: three quotes, with up to two more that
belong to the string. Answers those and the text after the end. -/
def closing? (quote : Char) (cs : List Char) : Option (List Char × List Char) :=
  let quotes := (cs.takeWhile (· = quote)).length
  if quotes < 3 then none
  else
    let inside := min quotes 5 - 3
    some (List.replicate inside quote, cs.drop (inside + 3))

/-- The rest of a string in three quotes. -/
def readLongBasic : Nat → List Char → Option (List Char × List Char)
  | 0, _ => none
  | _ + 1, [] => none
  | fuel + 1, c :: cs =>
    match closing? '"' (c :: cs) with
    | some done => some done
    | none =>
      if c = '\\' then
        match continuation? cs with
        | some rest => readLongBasic fuel rest
        | none => do
          let (d, rest) ← readEscape cs
          let (ds, rest) ← readLongBasic fuel rest
          pure (d :: ds, rest)
      else
        match afterNewline? (c :: cs) with
        | some rest => (readLongBasic fuel rest).map fun (ds, rest) => ('\n' :: ds, rest)
        | none =>
          if isPlain c then (readLongBasic fuel cs).map fun (ds, rest) => (c :: ds, rest)
          else none

/-- The rest of a literal string, on one line. -/
def readLiteral : List Char → Option (List Char × List Char)
  | [] => none
  | c :: cs =>
    if c = '\'' then some ([], cs)
    else if isPlain c then (readLiteral cs).map fun (ds, rest) => (c :: ds, rest)
    else none

/-- The rest of a literal string in three quotes. -/
def readLongLiteral : Nat → List Char → Option (List Char × List Char)
  | 0, _ => none
  | _ + 1, [] => none
  | fuel + 1, c :: cs =>
    match closing? '\'' (c :: cs) with
    | some done => some done
    | none =>
      match afterNewline? (c :: cs) with
      | some rest => (readLongLiteral fuel rest).map fun (ds, rest) => ('\n' :: ds, rest)
      | none =>
        if isPlain c then (readLongLiteral fuel cs).map fun (ds, rest) => (c :: ds, rest)
        else none

/-- The text without a line feed at its start. -/
def dropNewline (cs : List Char) : List Char := (afterNewline? cs).getD cs

/-- A string on one line, quotes included. -/
def readLineString : List Char → Option (List Char × List Char)
  | '"' :: cs => readBasic (cs.length + 1) cs
  | '\'' :: cs => readLiteral cs
  | _ => none

/-- A string of any form, quotes included. A line feed right after three opening quotes
does not belong to the string. -/
def readString : List Char → Option (List Char × List Char)
  | '"' :: '"' :: '"' :: cs => readLongBasic (cs.length + 1) (dropNewline cs)
  | '\'' :: '\'' :: '\'' :: cs => readLongLiteral (cs.length + 1) (dropNewline cs)
  | cs => readLineString cs

/-! ## Numbers -/

/-- The digits of a run in which an underscore stands between two digits only. -/
def digits? (isDigit : Char → Bool) : List Char → Option (List Char)
  | [] => none
  | [c] => if isDigit c then some [c] else none
  | c :: '_' :: cs => if isDigit c then (digits? isDigit cs).map (c :: ·) else none
  | c :: cs => if isDigit c then (digits? isDigit cs).map (c :: ·) else none

/-- The digits of a whole number, which has no zero in front. -/
def wholeDigits? (cs : List Char) : Option (List Char) :=
  (digits? Char.isDigit cs).bind fun ds =>
    if ds.head? = some '0' ∧ ds.length ≠ 1 then none else some ds

/-- A number without its sign, and whether it is negative. -/
def splitSign : List Char → Bool × List Char
  | '-' :: cs => (true, cs)
  | '+' :: cs => (false, cs)
  | cs => (false, cs)

/-- The value of digits in a base. -/
def baseValue (base : Nat) (ds : List Char) : Int :=
  ((ds.foldl (fun n c => base * n + (Text.hexDigit? c).getD 0) 0 : Nat) : Int)

/-- Whether a character is a digit in a base. -/
def isBaseDigit (base : Nat) (c : Char) : Bool := (Text.hexDigit? c).any (· < base)

/-- An integer in one of the four bases. -/
def readInteger (cs : List Char) : Option Int :=
  match cs with
  | '0' :: 'x' :: ds => (digits? (isBaseDigit 16) ds).map (baseValue 16)
  | '0' :: 'o' :: ds => (digits? (isBaseDigit 8) ds).map (baseValue 8)
  | '0' :: 'b' :: ds => (digits? (isBaseDigit 2) ds).map (baseValue 2)
  | _ =>
    let (negative, ds) := splitSign cs
    (wholeDigits? ds).map fun ds => if negative then -baseValue 10 ds else baseValue 10 ds

/-- A 64-bit integer. -/
def integer? (cs : List Char) : Option Int :=
  (readInteger cs).filter fun i => -Text.maxInt64 - 1 ≤ i ∧ i ≤ Text.maxInt64

/-- The text of an exponent without its sign, in digits. -/
def exponent? (cs : List Char) : Option (List Char) := digits? Char.isDigit (splitSign cs).2

/-- The part of a number after its whole digits: a fraction, an exponent, or both. -/
def isTail (cs : List Char) : Bool :=
  match cs with
  | '.' :: rest =>
    let fraction := rest.takeWhile fun c => c ≠ 'e' && c ≠ 'E'
    let power := rest.dropWhile fun c => c ≠ 'e' && c ≠ 'E'
    (digits? Char.isDigit fraction).isSome && (power = [] || (exponent? (power.drop 1)).isSome)
  | c :: rest => (c = 'e' || c = 'E') && (exponent? rest).isSome
  | [] => false

/-- Whether a run is a number with a fraction or an exponent, or one of the words for
infinity and for no number. A number too large for 64 bits is none. -/
def isReal (cs : List Char) : Bool :=
  let ds := (splitSign cs).2
  if ds = "inf".toList ∨ ds = "nan".toList then true
  else
    let isPart (c : Char) : Bool := c ≠ '.' && c ≠ 'e' && c ≠ 'E'
    (wholeDigits? (ds.takeWhile isPart)).isSome && isTail (ds.dropWhile isPart)
      && (Fp.read? (cs.filter (· ≠ '_')) : Option Double).any Fp.isFinite

/-! ## Scalars -/

/-- Characters of a run. -/
def isRunChar (c : Char) : Bool :=
  c.isAlphanum || c = '+' || c = '-' || c = '.' || c = '_' || c = ':'

/-- What a run stands for. -/
def judgeRun (cs : List Char) : Option Scalar :=
  if cs = "true".toList then some (.boolean true)
  else if cs = "false".toList then some (.boolean false)
  else match Moment.ofChars? cs, integer? cs with
    | some m, _ => some (.moment m)
    | none, some i => some (.integer i)
    | none, none => if isReal cs then some .real else none

/-- The run at the start of a text, and the text after it. A date and a time with one
blank between them are one run. -/
def takeRun (cs : List Char) : List Char × List Char :=
  let first := cs.takeWhile isRunChar
  let rest := cs.dropWhile isRunChar
  match rest with
  | ' ' :: c :: more =>
    if isDate first && c.isDigit then
      (first ++ ' ' :: (c :: more).takeWhile isRunChar, (c :: more).dropWhile isRunChar)
    else (first, rest)
  | _ => (first, rest)

/-- A scalar at the start of a text, and the text after it. -/
def readScalar (cs : List Char) : Option (Scalar × List Char) :=
  if cs.head? = some '"' ∨ cs.head? = some '\'' then
    (readString cs).map fun (s, rest) => (.text (String.ofList s), rest)
  else
    let (run, rest) := takeRun cs
    (judgeRun run).map fun s => (s, rest)

end VisualNovel.Toml
