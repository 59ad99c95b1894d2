import VisualNovel.Save.Format

/-!
# Pumping a player

A renderer is shown the cues of a player and may answer them; asked while the player
waits, it may answer too. One round shows what was queued, feeds an answer back if
there is one, and ticks the player otherwise. Rounds are repeated until the session
has ended.
-/

namespace VisualNovel

/-- Presents cues, and answers them or when the player waits. -/
structure Renderer (m : Type → Type) where
  render : Cue → Stage → m (Option Answer)
  prompt : PlayerState → Stage → m (Option Answer)

/-- The answer that goes on: the first option of a choice, else the next line. -/
def PlayerState.firstAnswer : PlayerState → Answer
  | .waitingForChoice => .choose 0
  | _ => .proceed

/-- Where sessions are saved: writing a slot, and reading one that can be opened. -/
structure SaveSlots (m : Type → Type) where
  write : Nat → List UInt8 → m Unit
  read : Nat → m (Option (List UInt8))

namespace Player

/-- Goes on from a line, completing its reveal first. -/
def proceed (p : Player) : Player := if p.isRevealing then p.advance.advance else p.advance

/-- Resumes the session in a save file if there is one that can be read and fits. -/
def tryLoad (p : Player) (file : Option (List UInt8)) : Player := (loading "" file).left p

variable {m : Type → Type} [Monad m]

/-- Feeds an answer to the player. Whether saving and loading succeed makes no difference. -/
def feed (slots : SaveSlots m) (p : Player) : Answer → m Player
  | .proceed => pure p.proceed
  | .choose index => pure (p.chooseOption index)
  | .exit => pure p.dispose
  | .save slot => do
    slots.write slot p.snapshot.toBytes
    pure p
  | .load slot => do
    let file ← slots.read slot
    pure (p.tryLoad file)

/-- Shows cues one after the other; the last answer counts. -/
def renderAll (r : Renderer m) (stage : Stage) (answer : Option Answer) :
    List Cue → m (Option Answer)
  | [] => pure answer
  | c :: cs => do
    let a ← r.render c stage
    renderAll r stage (a.or answer) cs

/-- One round; `false` when the session has ended. -/
def round (r : Renderer m) (slots : SaveSlots m) (p : Player) : m (Player × Bool) := do
  let (cues, p) := p.takeCues
  let answer ← renderAll r p.session.stage none cues
  if p.state = .terminated then pure (p, false)
  else
    -- A cue that was answered asks for nothing more; a line in mid-reveal goes on by itself.
    let answer ←
      if answer.isNone && p.isWaiting && !p.isRevealing then r.prompt p.state p.session.stage
      else pure answer
    match answer with
    | some a => do pure (← feed slots p a, true)
    | none => pure (p.tick, true)

end Player

end VisualNovel
