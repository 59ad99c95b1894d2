import VisualNovel.Player.Control
import VisualNovel.Proofs.Script.Commuting
import VisualNovel.Proofs.Text.Integers

/-!
# Coordinates from the editor to the stage

The editor writes coordinates into parameters, and the player reads parameters: each has its own
account of where they stand in a node of a kind, the editor's being `coordinateParams`. They
agree for every node, whatever its parameters are:

> `stands_at_params`: a node that is applied at once puts its object where the two parameters
> say that `coordinateParams` names for its kind.

The rest is that a number written is the number read, and that it is written at the places named
and nowhere else:

> `setCoordinates_stands`: a node with coordinates written into it puts its object there, and is
> the node it was in all else.
-/

namespace VisualNovel

namespace Script

variable {kind : Kind} {places : Nat × Nat} {params : List String} {x y : Int32}

/-- Where coordinates stand in the nodes of a kind. -/
theorem coordinateParams_eq_some_iff : coordinateParams kind = some places ↔
    kind = .characterShow ∧ places = (2, 3) ∨
      (kind = .imageShow ∨ kind = .move) ∧ places = (1, 2) := by
  cases kind <;> simp [coordinateParams, eq_comm]

/-- The kinds with coordinates. -/
theorem exists_coordinateParams_iff : (∃ places, coordinateParams kind = some places) ↔
    kind = .characterShow ∨ kind = .imageShow ∨ kind = .move := by
  cases kind <;> simp [coordinateParams]

theorem coordinateParams_adjacent (h : coordinateParams kind = some places) :
    places.2 = places.1 + 1 := by
  rcases coordinateParams_eq_some_iff.mp h with ⟨-, rfl⟩ | ⟨-, rfl⟩
  · rfl
  · rfl

/-! ## What is written -/

theorem length_writeCoordinates (params : List String) (places : Nat × Nat) (x y : Int32) :
    (writeCoordinates params places x y).length = max (places.2 + 1) params.length := by
  rw [writeCoordinates, List.length_set, List.length_set, List.length_rightpad]

/-- Before the coordinates are written there is room for them, with zeros in it. -/
theorem getElem?_writeCoordinates_of_ne {j : Nat} (first : j ≠ places.1) (second : j ≠ places.2) :
    (writeCoordinates params places x y)[j]? = (params.rightpad (places.2 + 1) "0")[j]? := by
  rw [writeCoordinates, List.getElem?_set_ne (Ne.symm second), List.getElem?_set_ne (Ne.symm first)]

/-- A node becomes another one by coordinates written at two of its parameters. -/
structure Written (places : Nat × Nat) (x y : Int32) (old new : Node) : Prop where
  rest : new = old.withParams new.params
  first : new.params[places.1]? = some (coordinateText x)
  second : new.params[places.2]? = some (coordinateText y)
  /-- The other parameters stay, and so do those missing behind the coordinates. -/
  other : ∀ j, j ≠ places.1 → j ≠ places.2 → j < old.params.length ∨ places.2 < j →
    new.params[j]? = old.params[j]?
  /-- What was missing before the coordinates is zero. -/
  filled : ∀ j, j < places.1 → old.params.length ≤ j → new.params[j]? = some "0"

theorem written_writeCoordinates (n : Node) (adjacent : places.2 = places.1 + 1) :
    Written places x y n (n.withParams (writeCoordinates n.params places x y)) where
  rest := rfl
  first := by
    show (writeCoordinates n.params places x y)[places.1]? = _
    rw [writeCoordinates, List.getElem?_set_ne (by omega), List.getElem?_set_self]
    rw [List.length_rightpad]
    omega
  second := by
    show (writeCoordinates n.params places x y)[places.2]? = _
    rw [writeCoordinates, List.getElem?_set_self]
    rw [List.length_set, List.length_rightpad]
    omega
  other := by
    intro j first second h
    show (writeCoordinates n.params places x y)[j]? = _
    by_cases there : j < n.params.length
    · rw [getElem?_writeCoordinates_of_ne first second]
      exact List.getElem?_append_left there
    · -- A parameter missing behind the coordinates is still missing.
      have room := length_writeCoordinates n.params places x y
      rw [List.getElem?_eq_none (by omega), List.getElem?_eq_none (by omega)]
  filled := by
    intro j before missing
    show (writeCoordinates n.params places x y)[j]? = _
    rw [getElem?_writeCoordinates_of_ne (by omega) (by omega)]
    exact (List.getElem?_append_right missing).trans (List.getElem?_replicate_of_lt (by omega))

/-! ## Writing into a node of a tree -/

variable {scenes t : Block} {id : NodeId} {n : Node}

/-- Coordinates are written into a node that is there and whose kind has them. -/
theorem setCoordinates_of_find (distinct : (ids scenes).Nodup) (found : find id scenes = some n)
    (h : coordinateParams n.kind = some places) (x y : Int32) :
    ∃ t, setCoordinates scenes id x y = some t ∧
      find id t = some (n.withParams (writeCoordinates n.params places x y)) := by
  obtain ⟨t, updated, foundNew⟩ := find_update distinct
    (local_withParams fun params => writeCoordinates params places x y) found
  refine ⟨t, ?_, foundNew⟩
  rw [setCoordinates, found]
  show (coordinateParams n.kind).bind _ = _
  rw [h]
  exact updated

theorem find_of_setCoordinates (h : setCoordinates scenes id x y = some t) :
    ∃ n places, find id scenes = some n ∧ coordinateParams n.kind = some places := by
  obtain ⟨n, found, rest⟩ := Option.bind_eq_some_iff.mp h
  obtain ⟨places, hplaces, -⟩ := Option.bind_eq_some_iff.mp rest
  exact ⟨n, places, found, hplaces⟩

/-- A coordinate that was written is the one that is read. -/
theorem paramInt_eq {i : Nat} (h : n.params[i]? = some (coordinateText x))
    (default : Int32) : n.paramInt i default = x := by
  have text : n.param i = coordinateText x := by
    rw [Node.param, List.getD_eq_getElem?_getD, h, Option.getD_some]
  rw [Node.paramInt, text]
  exact congrArg (·.getD default) (Text.readInt32?_toString x)

end Script

open Script

/-! ## Where the object stands -/

/-- The object of a name is on stage, at a place. -/
def Stage.StandsAt (stage : Stage) (name : String) (x y : Int32) : Prop :=
  ∃ o, stage.objects.find? name = some o ∧ o.x = x ∧ o.y = y

namespace Player

variable {p : Player} {n : Node} {places : Nat × Nat}

theorem applyInstant_of_ne (h : n.kind ≠ .conditional) :
    (p.applyInstant n).session = (Session.present p.setup true n p.session).session := by
  obtain ⟨_, _, _, _, _, _, _, _, _, _, _⟩ := n
  show Session.replay p.setup p.session _ = _
  rw [Session.replay, if_neg h]

/-- A character or an image that is shown at once is placed by its parameters. -/
theorem stands_show (h : coordinateParams n.kind = some places) (shows : n.kind ≠ .move)
    (named : n.param 0 ≠ "") (setup : Setup) (s : Session) :
    (Session.presentShow setup true n s).stage.StandsAt (n.param 0) (n.paramInt places.1 0)
      (n.paramInt places.2 0) := by
  unfold Session.presentShow
  dsimp only
  rw [if_neg named]
  rcases coordinateParams_eq_some_iff.mp h with ⟨kind, rfl⟩ | ⟨kind | kind, rfl⟩
  · rw [kind]
    exact ⟨_, (Table.find?_insert _ _ _ _).trans (if_pos rfl), rfl, rfl⟩
  · rw [kind]
    exact ⟨_, (Table.find?_insert _ _ _ _).trans (if_pos rfl), rfl, rfl⟩
  · exact absurd kind shows

/-- An object on stage that is moved at once is placed by the parameters of the move. -/
theorem stands_move (setup : Setup) (s : Session)
    (onStage : s.stage.objects.contains (n.param 0) = true) :
    (Session.presentMove setup true n s).stage.StandsAt (n.param 0) (n.paramInt 1 0)
      (n.paramInt 2 0) := by
  rw [Table.contains_eq_isSome] at onStage
  obtain ⟨o, found⟩ := Option.isSome_iff_exists.mp onStage
  unfold Session.presentMove Session.presentChange
  rw [found]
  refine ⟨{ o with x := n.paramInt 1 0, y := n.paramInt 2 0 }, ?_, rfl, rfl⟩
  show (s.stage.objects.modify _ _).find? _ = _
  rw [Table.find?_modify, if_pos rfl, found]
  rfl

/-- A node whose kind has coordinates puts its object, when it is applied at once, where the
parameters say that hold them: the object it names, or the one on stage that it moves. -/
theorem stands_at_params (p : Player) (h : coordinateParams n.kind = some places)
    (named : n.kind ≠ .move → n.param 0 ≠ "")
    (onStage : n.kind = .move → p.session.stage.objects.contains (n.param 0) = true) :
    (p.applyInstant n).session.stage.StandsAt (n.param 0) (n.paramInt places.1 0)
      (n.paramInt places.2 0) := by
  have shown (shows : n.kind ≠ .move) := stands_show h shows (named shows) p.setup p.session
  have single : n.kind ≠ .conditional := by
    intro kind
    rw [kind] at h
    cases h
  rw [applyInstant_of_ne single, Session.present]
  rcases coordinateParams_eq_some_iff.mp h with ⟨kind, rfl⟩ | ⟨kind | kind, rfl⟩
  · rw [kind]
    exact shown (by simp [kind])
  · rw [kind]
    exact shown (by simp [kind])
  · rw [kind]
    exact stands_move p.setup p.session (onStage kind)

/-- Where identities are distinct, coordinates can be written into a node exactly if it is there
and shows or moves something. What becomes of it has the coordinates at the two parameters for
them, keeps its other parameters and all else, and, applied at once, puts the object it shows, or
the one on stage that it moves, where they say. -/
theorem setCoordinates_stands (scenes : Block) (distinct : (ids scenes).Nodup) (id : NodeId)
    (x y : Int32) :
    ((∃ t, setCoordinates scenes id x y = some t) ↔ ∃ n, find id scenes = some n ∧
        (n.kind = .characterShow ∨ n.kind = .imageShow ∨ n.kind = .move)) ∧
      ∀ t, setCoordinates scenes id x y = some t → ∃ old new places,
        find id scenes = some old ∧ find id t = some new ∧
        coordinateParams old.kind = some places ∧ Written places x y old new ∧
        ∀ p : Player, (new.kind ≠ .move → new.param 0 ≠ "") →
          (new.kind = .move → p.session.stage.objects.contains (new.param 0) = true) →
          (p.applyInstant new).session.stage.StandsAt (new.param 0) x y := by
  constructor
  · constructor
    · rintro ⟨t, written⟩
      obtain ⟨n, places, found, h⟩ := find_of_setCoordinates written
      exact ⟨n, found, exists_coordinateParams_iff.mp ⟨places, h⟩⟩
    · rintro ⟨n, found, kind⟩
      obtain ⟨places, h⟩ := exists_coordinateParams_iff.mpr kind
      obtain ⟨t, written, -⟩ := setCoordinates_of_find distinct found h x y
      exact ⟨t, written⟩
  · intro t written
    obtain ⟨old, places, found, h⟩ := find_of_setCoordinates written
    obtain ⟨t', written', foundNew⟩ := setCoordinates_of_find distinct found h x y
    obtain rfl : t' = t := Option.some.inj (written'.symm.trans written)
    let new := old.withParams (writeCoordinates old.params places x y)
    have became : Written places x y old new :=
      written_writeCoordinates old (coordinateParams_adjacent h)
    have sameKind : coordinateParams new.kind = some places := h
    refine ⟨old, new, places, found, foundNew, h, became, fun p named onStage => ?_⟩
    have there := stands_at_params p sameKind named onStage
    rwa [paramInt_eq became.first, paramInt_eq became.second] at there

/-- A picture, and a move of it that has one coordinate only. -/
def placing : Block :=
  (Node.numberBlock 0 [(Node.ofKind .imageShow).withParams ["logo"],
    (Node.ofKind .move).withParams ["logo", "1"]]).1

/-- The move is given both coordinates, and brings the picture there. -/
theorem setCoordinates_stands_placing :
    let p := placing.foldl applyInstant (new ⟨.any, {}, {}⟩ .accepting)
    (ids placing).Nodup ∧ p.session.stage.StandsAt "logo" 1 0 ∧
      ∃ t edited, setCoordinates placing 1 (-30) 40 = some t ∧ find 1 t = some edited ∧
        edited.params[1]? = some "-30" ∧ edited.params[2]? = some "40" ∧
        (p.applyInstant edited).session.stage.StandsAt "logo" (-30) 40 := by
  intro p
  have distinct : (ids placing).Nodup := by decide
  obtain ⟨⟨-, succeeds⟩, edits⟩ := setCoordinates_stands placing distinct 1 (-30) 40
  obtain ⟨t, written⟩ := succeeds ⟨_, rfl, .inr (.inr rfl)⟩
  obtain ⟨old, edited, places, found, foundNew, h, became, stands⟩ := edits t written
  obtain rfl := Option.some.inj found
  obtain rfl := Option.some.inj h
  have first := became.other 0 (by decide) (by decide) (.inl (by decide))
  have named : edited.param 0 = "logo" := by
    rw [Node.param, List.getD_eq_getElem?_getD, first]
    rfl
  have kind : edited.kind = .move := congrArg Node.kind became.rest
  have onStage : p.session.stage.objects.contains "logo" = true := by decide +kernel
  refine ⟨distinct, ⟨_, rfl, rfl, rfl⟩, t, edited, written, foundNew, became.first,
    became.second, ?_⟩
  have there := stands p (fun shows => absurd kind shows) fun _ => named.symm ▸ onStage
  rwa [named] at there

end Player

end VisualNovel
