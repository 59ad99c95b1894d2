import VisualNovel.Script.Parse

/-!
# Writing a script

A scene list is written one line per node; choices and conditions take a line per
option and close with their terminator. A directive node whose word does not begin
with `@` has no written form, and no line is written for it.
-/

namespace VisualNovel

namespace Node

/-- Whether the speaker consists of blanks only. -/
def isNarration (n : Node) : Bool := n.speaker.toList.all Text.isBlank

/-- The line of a node, without the contents of its blocks. -/
def line (n : Node) : String :=
  match n.kind with
  | .text => if n.isNarration then n.text else "[" ++ n.speaker ++ "] \"" ++ n.text ++ "\""
  | .label => "*" ++ n.label
  | .choicePrompt => "@choice"
  | .choiceEnd => Terminator.endChoice.token
  | _ =>
    if n.isDirective then String.intercalate " " (n.token :: n.params)
    else ""

end Node

/-- The line of an option. -/
def ChoiceOption.line (o : ChoiceOption) : String := "\"" ++ o.text ++ "\" >> " ++ o.target

namespace Script

mutual

/-- The lines of a node and its blocks. -/
def nodeLines (n : Node) : List String :=
  match n with
  | ⟨_, _, kind, _, _, _, _, _, options, thenBranch, elseBranch⟩ =>
    match kind with
    | .choicePrompt =>
      "@choice" :: options.map ChoiceOption.line ++ [Terminator.endChoice.token]
    | .conditional =>
      n.line :: blockLines thenBranch
        ++ (if elseBranch.isEmpty then [] else Terminator.otherwise.token :: blockLines elseBranch)
        ++ [Terminator.endIf.token]
    | _ => [n.line]

/-- The lines of a block. -/
def blockLines : Block → List String
  | [] => []
  | n :: ns => nodeLines n ++ blockLines ns

end

/-- The text of a scene list: each line that is not empty, with a line feed. -/
def write (scenes : Block) : String :=
  String.join (((blockLines scenes).filter (· ≠ "")).map (· ++ "\n"))

end Script

end VisualNovel
