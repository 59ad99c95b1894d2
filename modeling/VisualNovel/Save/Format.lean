import VisualNovel.Save.Codec
import VisualNovel.Player.Snapshot

/-!
# Save files

The bytes of a snapshot, field by field: the stage, the variables, the state, the
frame and the return frames. What follows a snapshot in a file is ignored.
-/

namespace VisualNovel

namespace Codec

/-- A colour, channel by channel. -/
def color : Codec Color :=
  (byte.pair (byte.pair (byte.pair byte))).via
    (fun (a, r, g, b) => ⟨a, r, g, b⟩) fun c => (c.a, c.r, c.g, c.b)

/-- The kind of an object, a number. -/
def objectKind : Codec ObjectKind :=
  nat32.viaSome (fun n => if n = 0 then some .character else if n = 1 then some .image else none)
    fun
      | .character => 0
      | .image => 1

/-- An object on stage. -/
def stageObject : Codec StageObject :=
  (string.pair <| objectKind.pair <| (option string).pair <| int32.pair <| int32.pair <|
    bool.pair <| single.pair <| single.pair <| single.pair <| single.pair <|
    (option color).pair <| bool.pair single).via
    (fun (name, kind, asset, x, y, visible, rotation, scaleX, scaleY, alpha, tint, shaking,
        shakeAmount) =>
      ⟨name, kind, asset, x, y, visible, rotation, scaleX, scaleY, alpha, tint, shaking,
        shakeAmount⟩)
    fun o => (o.name, o.kind, o.asset, o.x, o.y, o.visible, o.rotation, o.scaleX, o.scaleY,
      o.alpha, o.tint, o.shaking, o.shakeAmount)

/-- An option of a choice. -/
def choiceOption : Codec ChoiceOption :=
  (string.pair string).via (fun (text, target) => ⟨text, target⟩) fun o => (o.text, o.target)

/-- A line of dialogue. -/
def dialogueRecord : Codec DialogueRecord :=
  (string.pair string).via (fun (speaker, text) => ⟨speaker, text⟩) fun r => (r.speaker, r.text)

/-- The stage. -/
def stage : Codec Stage :=
  ((option string).pair <| string.pair <| single.pair <| color.pair <| single.pair <|
    bool.pair <| string.pair <| string.pair <| string.pair <| (list choiceOption).pair <|
    (table stageObject).pair <| nat64.pair (list dialogueRecord)).via
    (fun (background, backgroundName, transitionAlpha, overlay, screenShake, messageVisible,
        speaker, message, targetMessage, choices, objects, revision, history) =>
      ⟨background, backgroundName, transitionAlpha, overlay, screenShake, messageVisible,
        speaker, message, targetMessage, choices, objects, revision, history⟩)
    fun s => (s.background, s.backgroundName, s.transitionAlpha, s.overlay, s.screenShake,
      s.messageVisible, s.speaker, s.message, s.targetMessage, s.choices, s.objects,
      s.revision, s.history)

/-- Reads the state that a number stands for, and the time left of a pause. -/
def readState (tag : Nat) (rest : List UInt8) : Option (PlayerState × List UInt8) :=
  match tag with
  | 0 => some (.loading, rest)
  | 1 => some (.running, rest)
  | 2 => (nat32.decode rest).map fun (ms, rest) => (.delaying ms, rest)
  | 3 => some (.waitingForClick, rest)
  | 4 => some (.waitingForChoice, rest)
  | 5 => some (.closing, rest)
  | 6 => some (.terminated, rest)
  | _ => none

/-- The state of a player: a number, and for a pause the time left. -/
def playerState : Codec PlayerState where
  encode
    | .loading => nat32.encode 0
    | .running => nat32.encode 1
    | .delaying ms => nat32.encode 2 ++ nat32.encode ms
    | .waitingForClick => nat32.encode 3
    | .waitingForChoice => nat32.encode 4
    | .closing => nat32.encode 5
    | .terminated => nat32.encode 6
  decode bytes := (nat32.decode bytes).bind fun (tag, rest) => readState tag rest

/-- One step of a path. -/
def branchStep : Codec BranchStep :=
  (nat64.pair bool).via (fun (index, side) => ⟨index, side⟩) fun s => (s.index, s.side)

/-- The position of a frame. -/
def frameSnapshot : Codec FrameSnapshot :=
  ((list branchStep).pair nat64).via (fun (path, pc) => ⟨path, pc⟩) fun f => (f.path, f.pc)

/-- A snapshot. -/
def snapshot : Codec Snapshot :=
  (stage.pair <| (table string).pair <| playerState.pair <| frameSnapshot.pair <|
    list frameSnapshot).via
    (fun (stage, vars, state, frame, stack) => ⟨stage, vars, state, frame, stack⟩)
    fun s => (s.stage, s.vars, s.state, s.frame, s.stack)

end Codec

/-- The bytes of a save file. -/
def Snapshot.toBytes (s : Snapshot) : List UInt8 := Codec.snapshot.encode s

/-- Reads a save file. -/
def Snapshot.ofBytes? (bytes : List UInt8) : Option Snapshot :=
  (Codec.snapshot.decode bytes).map Prod.fst

/-- Why a session could not be saved. -/
inductive SaveError
  | uncreatable (path : String)
  deriving DecidableEq, Repr

/-- The wording of the error. -/
def SaveError.message : SaveError → String
  | .uncreatable path => "Failed to create save file " ++ Path.quoted path

/-- Why a session could not be loaded. -/
inductive LoadError
  | missing (path : String)
  | undecodable (path : String)
  | misfit (cause : RestoreError)
  deriving DecidableEq, Repr

/-- The file a slot is saved in. -/
def slotPath (savePath : String) (slot : Nat) : String :=
  Path.join savePath ("slot_" ++ toString slot ++ ".sav")

/-- The wording of the error. -/
def LoadError.message : LoadError → String
  | .missing path => "Failed to open save file " ++ Path.quoted path
  | .undecodable path => "Failed to decode save file " ++ Path.quoted path
  | .misfit cause => cause.message

namespace Player

/-- Resumes the session in a save file, given by its bytes if it can be opened. -/
def loading (path : String) (file : Option (List UInt8)) : Attempt LoadError Unit :=
  match file with
  | none => throw (.missing path)
  | some bytes =>
    match Snapshot.ofBytes? bytes with
    | none => throw (.undecodable path)
    | some s => ExceptT.adapt .misfit (resuming s)

/-- The player with the session in a save file resumed. -/
def load (p : Player) (path : String) (file : Option (List UInt8)) : Except LoadError Player :=
  (loading path file).outcome p

end Player

end VisualNovel
