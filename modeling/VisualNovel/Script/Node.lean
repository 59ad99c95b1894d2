import VisualNovel.Script.Kind
import VisualNovel.Number.Decimal
import VisualNovel.Text.Integer

/-!
# Scene nodes

A script is a list of nodes, a block. A conditional node owns two more blocks, its
branches. Each node carries an identity, which edits keep and which is no part of
its content, and a sequence number, its position in its block from one.
-/

namespace VisualNovel

/-- One entry of a choice. -/
structure ChoiceOption where
  text : String
  target : String
  deriving DecidableEq, Repr, Inhabited

/-- The identity of a node. -/
abbrev NodeId := Nat

/-- One unit of a script. -/
structure Node where
  id : NodeId
  /-- Position in the enclosing block, from one. -/
  seq : Nat
  kind : Kind
  speaker : String
  text : String
  label : String
  /-- The directive word as it is written. -/
  token : String
  params : List String
  options : List ChoiceOption
  thenBranch : List Node
  elseBranch : List Node
  deriving Repr, Inhabited

/-- A list of nodes: a whole script or a branch. -/
abbrev Block := List Node

namespace Node

/-- A node of a kind with its canonical word and nothing else. -/
def ofKind (kind : Kind) : Node where
  id := 0
  seq := 0
  kind := kind
  speaker := ""
  text := ""
  label := ""
  token := kind.token
  params := []
  options := []
  thenBranch := []
  elseBranch := []

/-- A line of dialogue; narration has an empty speaker. -/
def dialogue (speaker text : String) : Node :=
  { ofKind .text with speaker := speaker, text := text }

/-- A jump target. -/
def ofLabel (name : String) : Node := { ofKind .label with label := name }

/-- A jump. -/
def jump (target : String) : Node :=
  { ofKind .goto with params := [target], label := target }

/-- A choice between options. -/
def choice (options : List ChoiceOption) : Node := { ofKind .choicePrompt with options := options }

/-- The node with another directive word; an empty word stands for the canonical one. -/
def withToken (n : Node) (word : String) : Node :=
  { n with token := if word = "" then n.kind.token else word }

/-- The node with other parameters. -/
def withParams (n : Node) (params : List String) : Node := { n with params := params }

/-- The node with another sequence number. -/
def withSeq (n : Node) (seq : Nat) : Node := { n with seq := seq }

/-- The node of a directive line. -/
def directive (word : String) (params : List String) : Node :=
  ((ofKind (.ofToken word)).withToken word).withParams params

/-- A conditional with its branches. -/
def conditional (params : List String) (thenBranch elseBranch : Block) : Node :=
  { ofKind .conditional with params := params, thenBranch := thenBranch, elseBranch := elseBranch }

/-- One of the two branches, `true` for the one taken when the condition holds. -/
def branch (n : Node) (side : Bool) : Block := if side then n.thenBranch else n.elseBranch

/-- The node with one branch replaced. -/
def withBranch (n : Node) (side : Bool) (b : Block) : Node :=
  if side then { n with thenBranch := b } else { n with elseBranch := b }

/-- A parameter by position, empty when there is none. -/
def param (n : Node) (i : Nat) : String := n.params.getD i ""

/-- A parameter read as an integer, or a default. -/
def paramInt (n : Node) (i : Nat) (default : Int32) : Int32 :=
  (Text.readInt32? (n.param i).toList).getD default

/-- A parameter read as a number, or a default. -/
def paramNumber (n : Node) (i : Nat) (default : Single) : Single :=
  (Fp.read? (n.param i).toList).getD default

/-- The label a jump names. -/
def jumpTarget (n : Node) : String := if n.label = "" then n.param 0 else n.label

/-- Whether the word of the node is that of a directive. -/
def isDirective (n : Node) : Bool := n.token.toList.head? == some '@'

/-- A branch that was put in is the one that is there. -/
theorem branch_withBranch (n : Node) (side : Bool) (b : Block) :
    (n.withBranch side b).branch side = b := by
  cases side <;> rfl

/-- Putting in one branch leaves the other. -/
theorem branch_withBranch_other (n : Node) (side : Bool) (b : Block) :
    (n.withBranch side b).branch (!side) = n.branch (!side) := by
  cases side <;> rfl

/-! ## Whole trees -/

mutual

/-- The node with all identities in it forgotten: its content. -/
def content : Node → Node
  | ⟨_, seq, kind, speaker, text, label, token, params, options, t, e⟩ =>
    ⟨0, seq, kind, speaker, text, label, token, params, options, blockContent t, blockContent e⟩

/-- The contents of a block. -/
def blockContent : Block → Block
  | [] => []
  | n :: ns => content n :: blockContent ns

end

mutual

/-- Number of nodes from here down. -/
def size : Node → Nat
  | ⟨_, _, _, _, _, _, _, _, _, t, e⟩ => 1 + blockSize t + blockSize e

/-- Number of nodes of a block, those of branches included. -/
def blockSize : Block → Nat
  | [] => 0
  | n :: ns => size n + blockSize ns

end

mutual

/-- How deep branches nest below a node, itself counted. -/
def depth : Node → Nat
  | ⟨_, _, _, _, _, _, _, _, _, t, e⟩ => 1 + max (blockDepth t) (blockDepth e)

/-- How deep the nodes of a block nest: zero for an empty one, one for a flat one. -/
def blockDepth : Block → Nat
  | [] => 0
  | n :: ns => max (depth n) (blockDepth ns)

end

mutual

/-- Structural equality: all but identities. -/
def sameContent : Node → Node → Bool
  | ⟨_, seq, kind, speaker, text, label, token, params, options, t, e⟩,
    ⟨_, seq', kind', speaker', text', label', token', params', options', t', e'⟩ =>
    seq == seq' && kind == kind' && speaker == speaker' && text == text' && label == label'
      && token == token' && params == params' && options == options'
      && sameBlock t t' && sameBlock e e'

/-- Structural equality of blocks. -/
def sameBlock : Block → Block → Bool
  | [], [] => true
  | n :: ns, m :: ms => sameContent n m && sameBlock ns ms
  | _, _ => false

end

mutual

/-- Numbers the nodes from `next` on in preorder: a node, then the branch taken
when the condition holds, then the other one. Answers the next free number too. -/
def number (next : NodeId) : Node → Node × NodeId
  | ⟨_, seq, kind, speaker, text, label, token, params, options, t, e⟩ =>
    let (t, next') := numberBlock (next + 1) t
    let (e, next') := numberBlock next' e
    (⟨next, seq, kind, speaker, text, label, token, params, options, t, e⟩, next')

/-- Numbers the nodes of a block from `next` on in preorder. -/
def numberBlock (next : NodeId) : Block → Block × NodeId
  | [] => ([], next)
  | n :: ns =>
    let (n, next') := number next n
    let (ns, next') := numberBlock next' ns
    (n :: ns, next')

end

end Node

end VisualNovel
