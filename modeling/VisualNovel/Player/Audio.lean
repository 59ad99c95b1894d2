/-!
# Audio triggers

The player only triggers sounds; decoding and mixing are the sink's. A sink is known
by the calls it got and by which of its fallible calls succeed. Volumes are
percentages.
-/

namespace VisualNovel

/-- A call to an audio sink. -/
inductive AudioCall
  | play (locator : String) (volume : Nat)
  | stop
  /-- Loads several voices of a short sample. -/
  | loadPool (locator : String) (count : Nat)
  /-- Plays a voice of the loaded sample. -/
  | playFromPool (volume : Nat)
  | releasePool
  deriving DecidableEq, Repr

/-- An audio sink: its calls so far, oldest first, and whether the call after so many
others succeeds. -/
structure AudioSink where
  calls : List AudioCall
  served : Nat
  accepts : Nat → AudioCall → Bool

namespace AudioSink

/-- A sink on which every call succeeds. -/
def accepting : AudioSink := ⟨[], 0, fun _ _ => true⟩

instance : Inhabited AudioSink := ⟨accepting⟩

/-- The sink after a call. -/
def call (s : AudioSink) (c : AudioCall) : AudioSink :=
  { s with calls := s.calls ++ [c], served := s.served + 1 }

/-- Whether a call would succeed now. -/
def answer (s : AudioSink) (c : AudioCall) : Bool := s.accepts s.served c

/-- The sink with its record of calls taken away. -/
def drained (s : AudioSink) : AudioSink := { s with calls := [] }

end AudioSink

end VisualNovel
