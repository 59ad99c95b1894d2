import VisualNovel.Player.Session

/-!
# Looking ahead

While a player waits, the assets of the nodes that come next are looked up, as far as
it is certain that they come next: up to a label, a jump, a choice or a condition.
-/

namespace VisualNovel.Preload

/-- Whether it is uncertain what comes after a node. -/
def isBoundary (n : Node) : Bool :=
  n.kind = .label || n.kind = .goto || n.kind = .choicePrompt || n.kind = .conditional

/-- The picture a node will show. -/
def image? (assets : Assets) (n : Node) : Option String :=
  match n.kind with
  | .characterShow | .imageShow => showAsset assets n
  | .backgroundSet => if n.param 0 = "_" then none else assets .background (n.param 0)
  | _ => none

/-- The sound a node will play. -/
def audio? (assets : Assets) (n : Node) : Option String :=
  match n.kind with
  | .musicPlay => assets .music (n.param 0)
  | .soundEffect => assets .sound (n.param 0)
  | _ => none

/-- The list without repetitions, each element at its first place. -/
def distinct : List String → List String
  | [] => []
  | a :: as => a :: (distinct as).filter (· ≠ a)

/-- The nodes that are looked at: at most `ahead` from `pc` on, up to a boundary. -/
def window (block : Block) (pc ahead : Nat) : Block :=
  ((block.drop pc).take ahead).takeWhile fun n => !isBoundary n

/-- The pictures and the sounds of the nodes ahead. -/
def scan (block : Block) (pc ahead : Nat) (assets : Assets) : List String × List String :=
  let nodes := window block pc ahead
  (distinct (nodes.filterMap (image? assets)), distinct (nodes.filterMap (audio? assets)))

end VisualNovel.Preload
