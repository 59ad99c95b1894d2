import VisualNovel.Script.Node

/-!
# Editing a scene tree

Edits name a node by its identity and answer a new tree in which only the blocks
between the root and that node are rebuilt, or nothing when there is no such node.
Where a block sits is given by its path, the branches entered on the way from the
root.
-/

namespace VisualNovel

/-- One step from a block into a branch of one of its nodes. -/
structure BranchStep where
  /-- Position of the entered node in the block. -/
  index : Nat
  /-- Which branch is entered: `true` for the one taken when the condition holds. -/
  side : Bool
  deriving DecidableEq, Repr, Inhabited

/-- The way from the root to a block. -/
abbrev BlockPath := List BranchStep

/-- Where a node is inserted. -/
inductive InsertPosition
  | root (index : Nat)
  | branch (parent : NodeId) (side : Bool) (index : Nat)
  deriving DecidableEq, Repr

namespace Script

mutual

/-- The first node in preorder with an identity. -/
def find (id : NodeId) : Block → Option Node
  | [] => none
  | n :: ns => if n.id = id then some n else (findBelow id n).or (find id ns)

/-- The node with an identity in the branches of a node. -/
def findBelow (id : NodeId) : Node → Option Node
  | ⟨_, _, _, _, _, _, _, _, _, t, e⟩ => (find id t).or (find id e)

end

/-- A position below a branch, seen from the block that holds the branch. -/
def enter (index : Nat) (side : Bool) (found : BlockPath × Nat) : BlockPath × Nat :=
  (⟨index, side⟩ :: found.1, found.2)

mutual

/-- Path and index of the node with an identity, in a block counted from `index`. -/
def findPathFrom (id : NodeId) (index : Nat) : Block → Option (BlockPath × Nat)
  | [] => none
  | n :: ns =>
    if n.id = id then some ([], index)
    else (findPathBelow id index n).or (findPathFrom id (index + 1) ns)

/-- Path and index of the node with an identity in the branches of a node. -/
def findPathBelow (id : NodeId) (index : Nat) : Node → Option (BlockPath × Nat)
  | ⟨_, _, _, _, _, _, _, _, _, t, e⟩ =>
    ((findPathFrom id 0 t).map (enter index true)).or
      ((findPathFrom id 0 e).map (enter index false))

end

/-- Path of the block that holds the node with an identity, and its index there. -/
def findPath (id : NodeId) (scenes : Block) : Option (BlockPath × Nat) :=
  findPathFrom id 0 scenes

/-- The block at a path, if the tree has it. -/
def resolve (scenes : Block) : BlockPath → Option Block
  | [] => some scenes
  | step :: path =>
    match scenes[step.index]? with
    | some n => resolve (n.branch step.side) path
    | none => none

/-- Index of the first node of a block with an identity. -/
def position (id : NodeId) (scenes : Block) : Option Nat := scenes.findIdx? (·.id == id)

/-- Rebuilds a block by `edit`, which is given the block and the index in it of the
node with an identity, if the block itself has that node. -/
def editHere (id : NodeId) (edit : Block → Nat → Block) (scenes : Block) : Option Block :=
  (position id scenes).map (edit scenes)

mutual

/-- Rebuilds the first branch, in order, that has the node. -/
def editBranches (id : NodeId) (edit : Block → Nat → Block) : Block → Option Block
  | [] => none
  | n :: ns =>
    ((editNode id edit n).map (· :: ns)).or ((editBranches id edit ns).map (n :: ·))

/-- Rebuilds the branch of a node that has the node searched for. -/
def editNode (id : NodeId) (edit : Block → Nat → Block) : Node → Option Node
  | ⟨i, seq, kind, speaker, text, label, token, params, options, t, e⟩ =>
    (((editHere id edit t).or (editBranches id edit t)).map fun t' =>
      ⟨i, seq, kind, speaker, text, label, token, params, options, t', e⟩).or
    (((editHere id edit e).or (editBranches id edit e)).map fun e' =>
      ⟨i, seq, kind, speaker, text, label, token, params, options, t, e'⟩)

end

/-- Rebuilds the block that holds the node with an identity. A node of the block
itself comes before nodes of its branches. -/
def editBlock (id : NodeId) (edit : Block → Nat → Block) (scenes : Block) : Option Block :=
  (editHere id edit scenes).or (editBranches id edit scenes)

/-- Numbers the nodes of one block by their position, from `next` on. -/
def renumberFrom (next : Nat) : Block → Block
  | [] => []
  | n :: ns => n.withSeq next :: renumberFrom (next + 1) ns

/-- Numbers the nodes of one block by their position. -/
def renumberBlock (scenes : Block) : Block := renumberFrom 1 scenes

mutual

/-- The node with its branches numbered by position at every depth. -/
def renumberNode (seq : Nat) : Node → Node
  | ⟨id, _, kind, speaker, text, label, token, params, options, t, e⟩ =>
    ⟨id, seq, kind, speaker, text, label, token, params, options,
      renumberAll 1 t, renumberAll 1 e⟩

/-- Numbers a block by position from `next` on, and its branches at every depth. -/
def renumberAll (next : Nat) : Block → Block
  | [] => []
  | n :: ns => renumberNode next n :: renumberAll (next + 1) ns

end

/-- Numbers every block of a tree by position. -/
def renumber (scenes : Block) : Block := renumberAll 1 scenes

/-- Rebuilds the node with an identity by `f`. -/
def update (scenes : Block) (id : NodeId) (f : Node → Node) : Option Block :=
  editBlock id (fun b i => b.modify i f) scenes

/-- Puts another node in the place of the one with an identity. -/
def replace (scenes : Block) (id : NodeId) (replacement : Node) : Option Block :=
  update scenes id fun _ => replacement

/-- Takes out the node with an identity and numbers the block anew. -/
def remove (scenes : Block) (id : NodeId) : Option Block :=
  editBlock id (fun b i => renumberBlock (b.eraseIdx i)) scenes

/-- The block with a node inserted, at its end if the index lies beyond it, and
numbered anew. -/
def insertInto (b : Block) (index : Nat) (n : Node) : Block :=
  renumberBlock (b.insertIdx (min index b.length) n)

/-- Inserts a node. -/
def insert (scenes : Block) (position : InsertPosition) (n : Node) : Option Block :=
  match position with
  | .root index => some (insertInto scenes index n)
  | .branch parent side index =>
    update scenes parent fun p => p.withBranch side (insertInto (p.branch side) index n)

/-- The parameters that hold the coordinates of a kind. -/
def coordinateParams : Kind → Option (Nat × Nat)
  | .characterShow => some (2, 3)
  | .imageShow | .move => some (1, 2)
  | _ => none

/-- Decimal text of a coordinate. -/
def coordinateText (x : Int32) : String := toString x.toInt

/-- The parameters with coordinates written at two places, lengthened by zeros to
hold them. -/
def writeCoordinates (params : List String) (places : Nat × Nat) (x y : Int32) : List String :=
  ((params.rightpad (places.2 + 1) "0").set places.1 (coordinateText x)).set places.2
    (coordinateText y)

/-- Writes coordinates into the parameters of a node that shows or moves something. -/
def setCoordinates (scenes : Block) (id : NodeId) (x y : Int32) : Option Block := do
  let n ← find id scenes
  let places ← coordinateParams n.kind
  update scenes id fun n => n.withParams (writeCoordinates n.params places x y)

end Script

end VisualNovel
