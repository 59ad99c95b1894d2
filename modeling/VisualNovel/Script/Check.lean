import VisualNovel.Script.Node

/-!
# Checking a script

Static findings about a scene list: how many nodes it has, its labels, directive
words of no known kind, and jumps and options that name no label of the root.
-/

namespace VisualNovel

/-- The findings about one script. -/
structure Report where
  nodes : Nat
  labels : List String
  unknown : List String
  unresolved : List String
  deriving DecidableEq, Repr

namespace Script

/-- The labels of the root block, in order. -/
def labels (scenes : Block) : List String :=
  (scenes.filter (·.kind == .label)).map (·.label)

/-- The label an option jumps to: its target without the star in front. -/
def ChoiceOption.targetLabel? (o : ChoiceOption) : Option String :=
  match o.target.toList with
  | '*' :: name => some (String.ofList name)
  | _ => none

/-- The targets of one node, without its branches, that are not among `known`. -/
def unresolvedHere (known : List String) (n : Node) : List String :=
  match n.kind with
  | .goto => if n.jumpTarget ∈ known then [] else ["@goto " ++ n.jumpTarget]
  | .choicePrompt =>
    n.options.filterMap fun o =>
      match ChoiceOption.targetLabel? o with
      | some name =>
        if name ∈ known then none
        else some ("choice \"" ++ o.text ++ "\" >> " ++ o.target)
      | none => none
  | _ => []

mutual

/-- Collects findings over a node and, if it is a conditional, its branches. -/
def collectNode (here : Node → List String) (n : Node) : List String :=
  here n ++ match n with
  | ⟨_, _, kind, _, _, _, _, _, _, t, e⟩ =>
    if kind = .conditional then collect here t ++ collect here e else []

/-- Collects findings over a block. -/
def collect (here : Node → List String) : Block → List String
  | [] => []
  | n :: ns => collectNode here n ++ collect here ns

end

/-- The directive word of a node of unknown kind. -/
def unknownHere (n : Node) : List String := if n.kind = .unknown then [n.token] else []

/-- The findings about a scene list. -/
def check (scenes : Block) : Report where
  nodes := Node.blockSize scenes
  labels := labels scenes
  unknown := collect unknownHere scenes
  unresolved := collect (unresolvedHere (labels scenes)) scenes

end Script

/-- Whether every target was resolved. -/
def Report.isClean (r : Report) : Bool := r.unresolved.isEmpty

end VisualNovel
