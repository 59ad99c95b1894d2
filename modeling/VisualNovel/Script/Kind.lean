/-!
# Kinds of scene nodes

Every node of a script has a kind, and every kind a canonical directive word. The
word of a directive decides its kind; a word that no kind has is `unknown`.
-/

namespace VisualNovel

/-- What a node of a script does. -/
inductive Kind
  /-- A line of dialogue or narration. -/
  | text
  /-- A jump target, addressable at the root. -/
  | label
  | backgroundSet
  | characterShow
  | characterHide
  | imageShow
  | imageHide
  | musicPlay
  | musicStop
  | soundEffect
  /-- A pause of so many milliseconds. -/
  | wait
  | waitForClick
  | screenShake
  | screenFlash
  | move
  | scale
  | rotate
  | objectShake
  | tint
  | goto
  /-- A choice between options. -/
  | choicePrompt
  /-- The closing word of a choice block, which no parsed tree holds. -/
  | choiceEnd
  /-- A hook for scripts of the host, without an effect of its own. -/
  | scriptInvoke
  | variableSet
  /-- A block with two branches, of which a condition picks one. -/
  | conditional
  | unknown
  deriving DecidableEq, Repr, Inhabited

namespace Kind

/-- All kinds. -/
def all : List Kind :=
  [text, label, backgroundSet, characterShow, characterHide, imageShow, imageHide, musicPlay,
    musicStop, soundEffect, wait, waitForClick, screenShake, screenFlash, move, scale, rotate,
    objectShake, tint, goto, choicePrompt, choiceEnd, scriptInvoke, variableSet, conditional,
    unknown]

/-- The canonical directive word of a kind. -/
def token : Kind → String
  | text => "text"
  | label => "label"
  | backgroundSet => "@bg"
  | characterShow => "@chara_in"
  | characterHide => "@chara_out"
  | imageShow => "@image_in"
  | imageHide => "@image_out"
  | musicPlay => "@bgm"
  | musicStop => "@stop_bgm"
  | soundEffect => "@se"
  | wait => "@wait"
  | waitForClick => "@wait_click"
  | screenShake => "@shake"
  | screenFlash => "@flash"
  | move => "@move"
  | scale => "@scale"
  | rotate => "@rotate"
  | objectShake => "@shake_obj"
  | tint => "@tint"
  | goto => "@goto"
  | choicePrompt => "@choice"
  | choiceEnd => "@end_choice"
  | scriptInvoke => "@script"
  | variableSet => "@set"
  | conditional => "@if"
  | unknown => "unknown"

/-- The kind with the given directive word. -/
def ofToken (word : String) : Kind := (all.find? fun k => k.token == word).getD unknown

/-- The name under which a kind appears in a dumped tree. -/
def name : Kind → String
  | text => "Text"
  | label => "Label"
  | backgroundSet => "BackgroundSet"
  | characterShow => "CharacterShow"
  | characterHide => "CharacterHide"
  | imageShow => "ImageShow"
  | imageHide => "ImageHide"
  | musicPlay => "MusicPlay"
  | musicStop => "MusicStop"
  | soundEffect => "SoundEffect"
  | wait => "Wait"
  | waitForClick => "WaitForClick"
  | screenShake => "ScreenShake"
  | screenFlash => "ScreenFlash"
  | move => "Move"
  | scale => "Scale"
  | rotate => "Rotate"
  | objectShake => "ObjectShake"
  | tint => "Tint"
  | goto => "Goto"
  | choicePrompt => "ChoicePrompt"
  | choiceEnd => "ChoiceEnd"
  | scriptInvoke => "ScriptInvoke"
  | variableSet => "VariableSet"
  | conditional => "Conditional"
  | unknown => "Unknown"

/-- The kind with the given name. -/
def ofName? (s : String) : Option Kind := all.find? fun k => k.name == s

/-- No two kinds share a word. -/
theorem ofToken_token (k : Kind) : ofToken k.token = k := by cases k <;> decide +kernel

end Kind

/-- The words that close a block or switch its branch, and never become nodes. -/
inductive Terminator
  | endIf
  | otherwise
  | endChoice
  deriving DecidableEq, Repr

/-- The directive word of a terminator. -/
def Terminator.token : Terminator → String
  | .endIf => "@endif"
  | .otherwise => "@else"
  | .endChoice => "@end_choice"

/-- Whether a directive word is one of the terminators. A directive with such a word would
become no node, but no line is read as one. -/
def isStructuralToken (word : String) : Bool :=
  word == Terminator.endIf.token || word == Terminator.otherwise.token
    || word == Terminator.endChoice.token

end VisualNovel
