import VisualNovel.Number.Arith
import VisualNovel.Text.Integer

/-!
# Durations and easing

A timed effect takes a number of fixed ticks; its progress runs through an easing
curve. Scripts give both as `milliseconds@easing`.
-/

namespace VisualNovel

/-- An easing curve. -/
inductive Easing
  | linear
  | easeIn
  | easeOut
  | easeInOut
  deriving DecidableEq, Repr, Inhabited

namespace Easing

def name : Easing → String
  | linear => "linear"
  | easeIn => "ease-in"
  | easeOut => "ease-out"
  | easeInOut => "ease-in-out"

/-- The curve with the given name, linear if no other has it. -/
def ofName (s : String) : Easing :=
  if s = easeIn.name then easeIn
  else if s = easeOut.name then easeOut
  else if s = easeInOut.name then easeInOut
  else linear

/-- An easing is read back from its name. -/
theorem ofName_name (e : Easing) : ofName e.name = e := by cases e <;> decide +kernel

/-- One half. -/
def half : Single := Fp.ofRat false (1 / 2)

/-- The eased fraction of a progress fraction `t`. -/
def apply (e : Easing) (t : Single) : Single :=
  match e with
  | linear => t
  | easeIn => t * t
  | easeOut => t * (2 - t)
  | easeInOut => if t.less half then 2 * t * t else -1 + (4 - 2 * t) * t

/-- Every curve ends where the progress ends. -/
theorem apply_one (e : Easing) : e.apply 1 = 1 := by cases e <;> decide +kernel

end Easing

/-- A duration in milliseconds with its easing. -/
structure TimeSpec where
  ms : Nat
  easing : Easing
  deriving DecidableEq, Repr, Inhabited

/-- A duration of so many milliseconds, at least none and at most a 32-bit word. -/
def clampDuration (ms : Int) : Nat := (Fp.clampInt 0 Text.maxWord32 ms).toNat

/-- Reads `milliseconds@easing`. What is not an integer is no duration, and an
easing that is missing or unknown is linear. Anything after a second `@` is ignored. -/
def TimeSpec.parse (text : String) : TimeSpec :=
  match Text.splitBy (· = '@') text.toList with
  | ms :: rest =>
    { ms := clampDuration ((Text.readInt64? (Text.trim ms)).getD 0)
      easing := match rest with
        | name :: _ => Easing.ofName (String.ofList name)
        | [] => .linear }
  | [] => { ms := 0, easing := .linear }

/-- How many ticks of `tick` milliseconds a timed effect takes: at least one. -/
def stepCount (duration tick : Nat) : Nat := max (duration / max tick 1) 1

/-- The number between `a` and `b` at the fraction `t`. -/
def lerp (a b t : Single) : Single := a + (b - a) * t

end VisualNovel
