import VisualNovel.Number.Decimal

/-!
# Dates and times of TOML

A moment is a date, a time of day, or a date with a time and perhaps an offset from
universal time. `Moment.ofChars?` reads one and `Moment.chars` writes it in its one
proper form: a `T` between date and time, seconds always, and a fraction without zeros
at its end.
-/

namespace VisualNovel.Toml

/-- A day of the calendar. -/
structure Date where
  year : Nat
  month : Nat
  day : Nat
  deriving DecidableEq, Repr

/-- A time of day, a leap second included. -/
structure TimeOfDay where
  hour : Nat
  minute : Nat
  second : Nat := 0
  nanosecond : Nat := 0
  deriving DecidableEq, Repr

/-- How far a time is from universal time. -/
inductive Offset
  | universal
  /-- So many minutes, east of it if positive. -/
  | minutes (m : Int)
  deriving DecidableEq, Repr

/-- A date, a time of day, or both. Only both have an offset. -/
inductive Moment
  | date (d : Date)
  | time (t : TimeOfDay)
  | dateTime (d : Date) (t : TimeOfDay) (offset : Option Offset)
  deriving DecidableEq, Repr

/-! ## Reading -/

/-- A number of exactly so many digits, within bounds, and the text after it. -/
def bounded (count low high : Nat) (cs : List Char) : Option (Nat × List Char) :=
  let ds := cs.take count
  let n := digitsValue ds
  if ds.length = count ∧ ds.all Char.isDigit ∧ low ≤ n ∧ n ≤ high then some (n, cs.drop count)
  else none

/-- The text after a certain character. -/
def after? (c : Char) : List Char → Option (List Char)
  | d :: cs => if c = d then some cs else none
  | [] => none

/-- The number of days of a month. -/
def daysOf (year month : Nat) : Nat :=
  if month = 2 then
    if year % 4 = 0 ∧ (year % 100 ≠ 0 ∨ year % 400 = 0) then 29 else 28
  else if month = 4 ∨ month = 6 ∨ month = 9 ∨ month = 11 then 30
  else 31

/-- A date, and the text after it. -/
def readDate (cs : List Char) : Option (Date × List Char) := do
  let (year, cs) ← bounded 4 0 9999 cs
  let (month, cs) ← bounded 2 1 12 (← after? '-' cs)
  let (day, cs) ← bounded 2 1 (daysOf year month) (← after? '-' cs)
  pure ({ year, month, day }, cs)

/-- How many places a fraction of a second has. -/
def fractionPlaces : Nat := 9

/-- The nanoseconds of a fraction. Digits past the ninth are cut off. -/
def nanoseconds (ds : List Char) : Nat :=
  digitsValue ((ds ++ List.replicate fractionPlaces '0').take fractionPlaces)

/-- A time of day, and the text after it. Its seconds, and a fraction of them, may be
left out. -/
def readTime (cs : List Char) : Option (TimeOfDay × List Char) := do
  let (hour, cs) ← bounded 2 0 23 cs
  let (minute, cs) ← bounded 2 0 59 (← after? ':' cs)
  match cs with
  | ':' :: cs =>
    let (second, cs) ← bounded 2 0 60 cs
    match cs with
    | '.' :: rest =>
      let fraction := rest.takeWhile Char.isDigit
      if fraction = [] then none
      else
        pure ({ hour, minute, second, nanosecond := nanoseconds fraction },
          rest.dropWhile Char.isDigit)
    | _ => pure ({ hour, minute, second }, cs)
  | _ => pure ({ hour, minute }, cs)

/-- The offset that is all of a text. -/
def offset? : List Char → Option Offset
  | ['Z'] | ['z'] => some .universal
  | c :: cs => do
    let (hours, cs) ← bounded 2 0 23 cs
    let (minutes, cs) ← bounded 2 0 59 (← after? ':' cs)
    let total : Int := ((60 * hours + minutes : Nat) : Int)
    if cs ≠ [] then none
    else if c = '+' then some (.minutes total)
    else if c = '-' then some (.minutes (-total))
    else none
  | [] => none

/-- Whether a text is a date and nothing else. -/
def isDate (cs : List Char) : Bool := (readDate cs).any (·.2 = [])

/-- The moment that is all of a text. -/
def Moment.ofChars? (cs : List Char) : Option Moment :=
  match readDate cs with
  | some (d, []) => some (.date d)
  | some (d, c :: rest) =>
    if c = 'T' ∨ c = 't' ∨ c = ' ' then do
      let (t, rest) ← readTime rest
      if rest = [] then some (.dateTime d t none)
      else (offset? rest).map fun o => .dateTime d t (some o)
    else none
  | none => (readTime cs).bind fun (t, rest) => if rest = [] then some (.time t) else none

/-! ## Writing -/

/-- A number in at least so many digits, zeros in front. -/
def padded (width n : Nat) : List Char := (Nat.toDigits 10 n).leftpad width '0'

/-- A day, the largest unit first. -/
def Date.chars (d : Date) : List Char :=
  padded 4 d.year ++ '-' :: padded 2 d.month ++ '-' :: padded 2 d.day

/-- The fraction of a second with its point, or nothing if it is zero. -/
def fractionChars (nanosecond : Nat) : List Char :=
  if nanosecond = 0 then []
  else '.' :: ((padded fractionPlaces nanosecond).reverse.dropWhile (· = '0')).reverse

/-- A time of day with its seconds. -/
def TimeOfDay.chars (t : TimeOfDay) : List Char :=
  padded 2 t.hour ++ ':' :: padded 2 t.minute ++ ':' :: padded 2 t.second
    ++ fractionChars t.nanosecond

/-- An offset in hours and minutes, `Z` for universal time. None at all has the sign of
the east. -/
def Offset.chars : Offset → List Char
  | .universal => ['Z']
  | .minutes m =>
    (if m < 0 then '-' else '+') :: padded 2 (m.natAbs / 60) ++ ':' :: padded 2 (m.natAbs % 60)

/-- A moment in its proper form. -/
def Moment.chars : Moment → List Char
  | .date d => d.chars
  | .time t => t.chars
  | .dateTime d t offset => d.chars ++ 'T' :: t.chars ++ (offset.map Offset.chars).getD []

/-- The text of a moment. -/
def Moment.text (m : Moment) : String := String.ofList m.chars

end VisualNovel.Toml
