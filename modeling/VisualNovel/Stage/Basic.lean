import VisualNovel.Table
import VisualNovel.Markup.Color
import VisualNovel.Script.Node

/-!
# The stage

What is presented at a moment: background, message, choices, screen-wide effects and
the objects on screen by their script id, with the record of all dialogue so far.
`revision` is a stamp that changes whenever an object comes or goes.
-/

namespace VisualNovel

/-- What an object on stage is. -/
inductive ObjectKind
  | character
  | image
  deriving DecidableEq, Repr, Inhabited

/-- One character or image on screen. -/
structure StageObject where
  name : String
  kind : ObjectKind
  /-- Where its picture is; nothing when none was found. -/
  asset : Option String
  x : Int32
  y : Int32
  visible : Bool
  rotation : Single
  scaleX : Single
  scaleY : Single
  alpha : Single
  tint : Option Color
  shaking : Bool
  shakeAmount : Single
  deriving DecidableEq, Inhabited

/-- An object as it enters the stage, before any effect. -/
def StageObject.ofPlace (name : String) (kind : ObjectKind) (asset : Option String)
    (x y : Int32) : StageObject where
  name := name
  kind := kind
  asset := asset
  x := x
  y := y
  visible := true
  rotation := 0
  scaleX := 1
  scaleY := 1
  alpha := 1
  tint := none
  shaking := false
  shakeAmount := 0

/-- One line of dialogue that was presented. -/
structure DialogueRecord where
  speaker : String
  text : String
  deriving DecidableEq, Repr, Inhabited

/-- What is presented. -/
structure Stage where
  background : Option String
  backgroundName : String
  /-- Opacity of the black cover that fades use. -/
  transitionAlpha : Single
  overlay : Color
  screenShake : Single
  messageVisible : Bool
  speaker : String
  /-- The part of the target message that is revealed, markup included. -/
  message : String
  targetMessage : String
  choices : List ChoiceOption
  objects : Table StageObject
  revision : Nat
  history : List DialogueRecord
  deriving DecidableEq

namespace Stage

/-- The stage before anything is presented. -/
def empty : Stage where
  background := none
  backgroundName := ""
  transitionAlpha := 0
  overlay := .transparent
  screenShake := 0
  messageVisible := false
  speaker := ""
  message := ""
  targetMessage := ""
  choices := []
  objects := .empty
  revision := 0
  history := []

instance : Inhabited Stage := ⟨empty⟩

/-- Puts an object on stage, in the place of one with the same name. -/
def insertObject (s : Stage) (o : StageObject) : Stage :=
  { s with objects := s.objects.insert o.name o, revision := s.revision + 1 }

/-- Takes an object off the stage. -/
def removeObject (s : Stage) (name : String) : Stage :=
  if s.objects.contains name then
    { s with objects := s.objects.erase name, revision := s.revision + 1 }
  else s

/-- Changes an object if it is on stage. -/
def modifyObject (s : Stage) (name : String) (f : StageObject → StageObject) : Stage :=
  { s with objects := s.objects.modify name f }

/-- Shows another background. -/
def setBackground (s : Stage) (name : String) (locator : Option String) : Stage :=
  { s with backgroundName := name, background := locator }

/-- Takes off all objects and the background. -/
def clearPresentation (s : Stage) : Stage :=
  { s with objects := .empty, revision := s.revision + 1, background := none }

/-- Ends the screen-wide effects and the shaking of objects. -/
def settle (s : Stage) : Stage :=
  { s with
    transitionAlpha := 0
    overlay := .transparent
    screenShake := 0
    objects := s.objects.mapValues fun _ o => { o with shaking := false } }

end Stage

end VisualNovel
