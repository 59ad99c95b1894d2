/-!
# Cues and answers

While a script plays, the player queues cues for whoever presents it; the state of
the presentation itself is read from the stage. What comes back are answers.
-/

namespace VisualNovel

/-- A notice to the presentation. -/
inductive Cue
  | showText (speaker text : String)
  | showChoices (options : List String)
  /-- The background changed; without a name it was cleared. -/
  | backgroundChanged (name locator : Option String)
  /-- Locators of assets that the nodes ahead will need. -/
  | preload (images audios : List String)
  | finished
  deriving DecidableEq, Repr

/-- What the reader answers. -/
inductive Answer
  | choose (index : Nat)
  | proceed
  | exit
  | save (slot : Nat)
  | load (slot : Nat)
  deriving DecidableEq, Repr, Inhabited

end VisualNovel
