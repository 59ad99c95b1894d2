import VisualNovel.Script.Node
import VisualNovel.Text.Json

/-!
# Dumping a script

A scene tree as a value of JSON, with every field of every node.
-/

namespace VisualNovel

/-- An option with its text and its target. -/
def ChoiceOption.toJson (o : ChoiceOption) : JsonValue :=
  .object [("text", .text o.text), ("target", .text o.target)]

mutual

/-- A node with its branches. -/
def Node.toJson : Node → JsonValue
  | ⟨id, seq, kind, speaker, text, label, token, params, options, thenBranch, elseBranch⟩ =>
    .object
      [("id", .natural id),
        ("seq", .natural seq),
        ("kind", .text kind.name),
        ("speaker", .text speaker),
        ("text", .text text),
        ("label", .text label),
        ("token", .text token),
        ("params", .list (params.map .text)),
        ("options", .list (options.map ChoiceOption.toJson)),
        ("then_branch", .list (Node.blockToJson thenBranch)),
        ("else_branch", .list (Node.blockToJson elseBranch))]

/-- The nodes of a block. -/
def Node.blockToJson : Block → List JsonValue
  | [] => []
  | n :: ns => n.toJson :: Node.blockToJson ns

end

/-- The text of a dumped script with its title. -/
def Script.dump (title : String) (scenes : Block) : String :=
  (JsonValue.object [("title", .text title), ("scenes", .list (Node.blockToJson scenes))]).write

end VisualNovel
