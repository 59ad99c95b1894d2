import VisualNovel.Condition
import VisualNovel.Stage.Animator
import VisualNovel.Stage.Assets
import VisualNovel.Player.Cue
import VisualNovel.Player.Audio
import VisualNovel.Settings.Basic

/-!
# What a node does

`present` carries out one node: it changes the stage and the variables, queues cues,
starts tasks and triggers sounds, and says whether the player goes on, waits or
pauses. The instant form applies end states only; it starts no task and never waits,
and `replay` applies whole trees in that form.
-/

namespace VisualNovel

/-- What a player is given once: how assets are found, and its settings. -/
structure Setup where
  assets : Assets
  player : PlayerSettings
  sound : AudioSettings

/-- The number of ticks of an effect. -/
def Setup.steps (setup : Setup) (ms : Nat) : Nat := stepCount ms setup.player.tickMs

/-- What changes while a script plays, apart from the place in the script. -/
structure Session where
  stage : Stage
  vars : Variables
  /-- Cues not yet taken, oldest first. -/
  cues : List Cue
  animator : Animator
  audio : AudioSink
  /-- Whether the sample for revealed letters is loaded. -/
  poolLoaded : Bool

namespace Session

/-- Queues a cue. -/
def cue (s : Session) (c : Cue) : Session := { s with cues := s.cues ++ [c] }

/-- Calls the audio sink. -/
def call (s : Session) (c : AudioCall) : Session := { s with audio := s.audio.call c }

end Session

/-- How the player goes on after a node. -/
inductive Next
  | proceed
  | waitClick
  | waitChoice
  /-- A pause of so many milliseconds, with the cursor past the node. -/
  | delay (ms : Nat)
  deriving DecidableEq, Repr

/-- The effect of a node: the session, how to go on, and the reveal it started. -/
structure Effect where
  session : Session
  next : Next := .proceed
  reveal : Option TaskId := none

/-- A duration given as an integer parameter, none if it is negative. -/
def durationParam (n : Node) (i : Nat) : Nat := (n.paramInt i 0).toInt.toNat

/-- The strength of a shake, ten if it is no number. -/
def shakeStrength (text : String) : Single := (Fp.read? text.toList).getD 10

/-- The picture of a shown node: for a character the one of its face under its id,
then the face, then the id; for an image its id. -/
def showAsset (assets : Assets) (n : Node) : Option String :=
  let id := n.param 0
  if n.kind = .characterShow then
    let face := n.param 1
    (assets .character (id ++ "_" ++ face)).or
      ((assets .character face).or (assets .character id))
  else assets .image id

namespace Session

variable (setup : Setup) (instant : Bool)

/-- Presents a line of dialogue. -/
def presentText (n : Node) (s : Session) : Effect :=
  let stage := { s.stage with
    messageVisible := true, speaker := n.speaker, targetMessage := n.text }
  if instant then { session := { s with stage := { stage with message := n.text } } }
  else
    -- The message itself is filled in by the reveal.
    let (animator, id) := s.animator.reveal n.text setup.player.revealIntervalMs
    let stage := { stage with
      message := "", history := stage.history ++ [⟨n.speaker, n.text⟩] }
    { session := { s with stage := stage, animator := animator }.cue (.showText n.speaker n.text)
      next := .waitClick
      reveal := some id }

/-- Changes the background, at once or behind a crossfade. The one shown already and
one that is not found are left; the name `_` clears it. -/
def presentBackground (name time : String) (s : Session) : Session :=
  let time := TimeSpec.parse time
  if name = "" ∨ name = s.stage.backgroundName then s
  else
    let found := if name = "_" then some none else (setup.assets .background name).map some
    match found with
    | none => s
    | some locator =>
      if !instant && 0 < time.ms then
        -- One half of the time covers the stage, the other uncovers it.
        { s with animator := (s.animator.crossfade name locator (setup.steps (time.ms / 2))).1 }
      else
        { s with stage := s.stage.setBackground name locator }.cue
          (.backgroundChanged (if name = "_" then none else some name) locator)

/-- Puts a character or an image on stage, at once or fading in. -/
def presentShow (n : Node) (s : Session) : Session :=
  let id := n.param 0
  if id = "" then s
  else
    let (kind, i) := if n.kind = .characterShow then (ObjectKind.character, 2) else (.image, 1)
    let fade := TimeSpec.parse (n.param 4)
    let fading := !instant && 0 < fade.ms
    let placed := StageObject.ofPlace id kind (showAsset setup.assets n)
      (n.paramInt i 0) (n.paramInt (i + 1) 0)
    let o := { placed with alpha := if fading then 0 else 1 }
    -- What ran on an object of the same name must not touch the new one.
    let s := { s with
      animator := s.animator.cancelTarget id, stage := s.stage.insertObject o }
    if fading then
      { s with animator := (s.animator.tween id (.alpha 0 1) (setup.steps fade.ms) fade.easing).1 }
    else s

/-- Takes an object off the stage, at once or fading out. -/
def presentHide (n : Node) (s : Session) : Session :=
  let id := n.param 0
  let time := TimeSpec.parse (n.param 1)
  if !instant && 0 < time.ms then
    { s with animator := (s.animator.fadeOut id (setup.steps time.ms) time.easing).1 }
  else
    { s with animator := s.animator.cancelTarget id, stage := s.stage.removeObject id }

/-- Brings a property of an object on stage to a new value: by a tween that begins at
the present value, or at once by `set`. -/
def presentChange (id : String) (time : TimeSpec) (tween : StageObject → Tween)
    (set : StageObject → StageObject) (s : Session) : Session :=
  match s.stage.objects.find? id with
  | none => s
  | some o =>
    if !instant && 0 < time.ms then
      { s with animator := (s.animator.tween id (tween o) (setup.steps time.ms) time.easing).1 }
    else { s with stage := s.stage.modifyObject id set }

/-- Moves an object. The duration is a time with its easing, or an integer with the
name of the easing after it. -/
def presentMove (n : Node) (s : Session) : Session :=
  let x := n.paramInt 1 0
  let y := n.paramInt 2 0
  let time := if '@' ∈ (n.param 3).toList then TimeSpec.parse (n.param 3)
    else ⟨durationParam n 3, Easing.ofName (n.param 4)⟩
  presentChange setup instant (n.param 0) time (fun o => .position o.x o.y x y)
    (fun o => { o with x := x, y := y }) s

/-- Scales an object; the parameters are percentages. -/
def presentScale (n : Node) (s : Session) : Session :=
  let x : Single := Fp.ofInt (n.paramInt 1 0).toInt / 100
  let y : Single := Fp.ofInt (n.paramInt 2 0).toInt / 100
  presentChange setup instant (n.param 0) (TimeSpec.parse (n.param 3))
    (fun o => .scale o.scaleX o.scaleY x y) (fun o => { o with scaleX := x, scaleY := y }) s

/-- Turns an object to an angle. -/
def presentRotate (n : Node) (s : Session) : Session :=
  let angle := n.paramNumber 1 0
  presentChange setup instant (n.param 0) (TimeSpec.parse (n.param 2))
    (fun o => .rotation o.rotation angle) (fun o => { o with rotation := angle }) s

/-- A colour channel given as a parameter. -/
def channelParam (n : Node) (i : Nat) : UInt8 :=
  UInt8.ofNat (Fp.clampInt 0 255 (n.paramInt i 255).toInt).toNat

/-- The colour of a tint: a colour code, or three channels. A code that cannot be read
stands for no tint. -/
def tintTarget (n : Node) : Option Color :=
  if (n.param 1).toList.head? = some '#' then Color.parseHex (n.param 1).toList
  else some (.rgb (channelParam n 1) (channelParam n 2) (channelParam n 3))

/-- Tints an object, beginning at white if it has no tint. -/
def presentTint (n : Node) (s : Session) : Session :=
  match tintTarget n with
  | some c =>
    presentChange setup instant (n.param 0) (TimeSpec.parse (n.param 4))
      (fun o => .tint (o.tint.getD .white) c) (fun o => { o with tint := some c }) s
  | none => { s with stage := s.stage.modifyObject (n.param 0) fun o => { o with tint := none } }

/-- Shakes an object on stage. -/
def presentObjectShake (n : Node) (s : Session) : Session :=
  let id := n.param 0
  if !instant && s.stage.objects.contains id then
    { s with
      stage := s.stage.modifyObject id fun o =>
        { o with shaking := true, shakeAmount := shakeStrength (n.param 1) }
      animator := (s.animator.shakeObject id (durationParam n 2)).1 }
  else s

/-- Shakes the screen. -/
def presentScreenShake (n : Node) (s : Session) : Session :=
  let time := TimeSpec.parse (n.param 1)
  if !instant && 0 < time.ms then
    { s with
      stage := { s.stage with screenShake := shakeStrength (n.param 0) }
      animator := (s.animator.shakeScreen time.ms).1 }
  else s

/-- Flashes the screen in a colour, white if it cannot be read. -/
def presentFlash (n : Node) (s : Session) : Session :=
  let color := (Color.parseHex (n.param 0).toList).getD .white
  let time := TimeSpec.parse (n.param 1)
  if !instant && 0 < time.ms then
    { s with
      stage := { s.stage with overlay := color }
      animator := (s.animator.flash color (setup.steps time.ms) time.easing).1 }
  else { s with stage := { s.stage with overlay := .transparent } }

/-- Plays a sound if it is found. Whether the sink succeeds makes no difference. -/
def playSound (kind : AssetKind) (name : String) (volume : Nat) (s : Session) : Session :=
  match setup.assets kind name with
  | some locator => s.call (.play locator volume)
  | none => s

/-- Whether a pausing node waits for a click. -/
def waitsForClick (n : Node) : Bool := n.kind = .waitForClick || n.token == Kind.waitForClick.token

/-- Pauses. -/
def presentWait (n : Node) (s : Session) : Effect :=
  if instant then { session := s }
  else if waitsForClick n then { session := s, next := .waitClick }
  else
    let ms := durationParam n 0
    if 0 < ms then { session := s, next := .delay ms } else { session := s }

/-- Offers the options of a choice, if there are any. -/
def presentChoice (n : Node) (s : Session) : Effect :=
  if instant || n.options.isEmpty then { session := s }
  else
    { session := { s with stage := { s.stage with choices := n.options } }.cue
        (.showChoices (n.options.map ChoiceOption.text))
      next := .waitChoice }

/-- Carries out one node. Labels, jumps and conditionals are matters of the place in
the script and have no effect here. -/
def present (n : Node) (s : Session) : Effect :=
  match n.kind with
  | .text => presentText setup instant n s
  | .backgroundSet =>
    { session := presentBackground setup instant (n.param 0) (n.param 1) s }
  | .characterShow | .imageShow => { session := presentShow setup instant n s }
  | .characterHide | .imageHide => { session := presentHide setup instant n s }
  | .move => { session := presentMove setup instant n s }
  | .scale => { session := presentScale setup instant n s }
  | .rotate => { session := presentRotate setup instant n s }
  | .tint => { session := presentTint setup instant n s }
  | .objectShake => { session := presentObjectShake instant n s }
  | .screenShake => { session := presentScreenShake instant n s }
  | .screenFlash => { session := presentFlash setup instant n s }
  | .musicPlay => { session := playSound setup .music (n.param 0) setup.sound.musicVolume s }
  | .soundEffect =>
    { session := if instant then s
        else playSound setup .sound (n.param 0) setup.sound.soundVolume s }
  | .musicStop => { session := s.call .stop }
  | .wait | .waitForClick => presentWait instant n s
  | .choicePrompt => presentChoice instant n s
  | .variableSet =>
    { session := { s with vars := assign s.vars (n.param 0) (n.param 1) (n.param 2) } }
  | .label | .goto | .choiceEnd | .scriptInvoke | .conditional | .unknown => { session := s }

end Session

/-- Whether the condition of a node holds; an operator that is left out asks for
equality. -/
def conditionHolds (vars : Variables) (n : Node) : Bool :=
  holds vars (n.param 0) (if n.param 1 = "" then "==" else n.param 1) (n.param 2)

namespace Session

mutual

/-- Applies the end state of a node; of a conditional, those of the branch that its
condition picks at this point. -/
def replay (setup : Setup) (s : Session) (n : Node) : Session :=
  match n with
  | ⟨_, _, kind, _, _, _, _, _, _, thenBranch, elseBranch⟩ =>
    if kind = .conditional then
      -- Only the nodes before this one have set variables so far.
      if conditionHolds s.vars n then replayAll setup s thenBranch
      else replayAll setup s elseBranch
    else (present setup true n s).session

/-- Applies the end states of a block in order. -/
def replayAll (setup : Setup) (s : Session) : Block → Session
  | [] => s
  | n :: ns => replayAll setup (replay setup s n) ns

end

end Session

end VisualNovel
