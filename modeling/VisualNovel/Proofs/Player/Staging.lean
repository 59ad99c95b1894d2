import VisualNovel.Proofs.Player.Course
import VisualNovel.Proofs.Stage.Identity
import VisualNovel.Proofs.Stage.Scenery

/-!
# What nodes and time do to the scenery

`Staged` lists the shapes in which a node can change the scenery, with what each says about
the node: it shows or hides an object, sets a property at once or begins to, does so with
the background, or leaves all that alone. `Drift` lists what happens to it without a node.
What all the shapes keep lasts through any number of nodes and any time between them.

> `Session.staged`: presenting a node is one of the shapes.

> `Staging.keeps`: what each step of a staging keeps, the staging keeps.

> `Staging.since`: so it is with what one node on the way brings about.
-/

namespace VisualNovel

open Change

namespace Node

variable (n : Node)

/-- The node puts an object with this id on stage. -/
def Shows (id : String) : Prop :=
  (n.kind = .characterShow ∨ n.kind = .imageShow) ∧ n.param 0 = id ∧ id ≠ ""

/-- The node takes the object with this id off the stage. -/
def Hides (id : String) : Prop :=
  (n.kind = .characterHide ∨ n.kind = .imageHide) ∧ n.param 0 = id

/-- The value that a node gives to a property of an object. -/
def value? : Option Property :=
  match n.kind with
  | .move => some (.position (n.paramInt 1 0) (n.paramInt 2 0))
  | .scale =>
    some (.scale (Fp.ofInt (n.paramInt 1 0).toInt / 100) (Fp.ofInt (n.paramInt 2 0).toInt / 100))
  | .rotate => some (.rotation (n.paramNumber 1 0))
  | .tint => some (.tint (Session.tintTarget n))
  | _ => none

/-- The node gives this value to a property of the object with this id. -/
def Sets (id : String) (v : Property) : Prop := n.value? = some v ∧ n.param 0 = id

/-- How long the node takes to bring the property or the background to its value. -/
def duration : Nat :=
  match n.kind with
  | .move =>
    if '@' ∈ (n.param 3).toList then (TimeSpec.parse (n.param 3)).ms else durationParam n 3
  | .scale => (TimeSpec.parse (n.param 3)).ms
  | .rotate => (TimeSpec.parse (n.param 2)).ms
  | .tint => (TimeSpec.parse (n.param 4)).ms
  | .backgroundSet => (TimeSpec.parse (n.param 1)).ms
  | _ => 0

/-- The node asks for the background of this name, and it is found, or clears it. -/
def Backs (assets : Assets) (name : String) : Prop :=
  n.kind = .backgroundSet ∧ n.param 0 = name ∧ name ≠ "" ∧
    (name = "_" ∨ (assets .background name).isSome)

instance (id : String) : Decidable (n.Shows id) := inferInstanceAs (Decidable (_ ∧ _))

instance (id : String) : Decidable (n.Hides id) := inferInstanceAs (Decidable (_ ∧ _))

instance (id : String) (v : Property) : Decidable (n.Sets id v) :=
  inferInstanceAs (Decidable (_ ∧ _))

instance (assets : Assets) (name : String) : Decidable (n.Backs assets name) :=
  inferInstanceAs (Decidable (_ ∧ _))

end Node

/-- Nodes of four kinds give a value to a property. -/
theorem Node.kind_of_value? {n : Node} {v : Property} (h : n.value? = some v) :
    n.kind = .move ∨ n.kind = .scale ∨ n.kind = .rotate ∨ n.kind = .tint := by
  unfold Node.value? at h
  split at h
  next kind => exact .inl kind
  next kind => exact .inr (.inl kind)
  next kind => exact .inr (.inr (.inl kind))
  next kind => exact .inr (.inr (.inr kind))
  next => contradiction

/-! ## The shapes -/

section

variable (setup : Setup) (instant : Bool) (n : Node) (c : Scenery)

/-- What a node can make of the scenery. -/
inductive Staged : Scenery → Prop
  | same (shows : ∀ id, ¬n.Shows id) (sets : ∀ id v, n.Sets id v → c.objects.contains id = false)
      (backs : ∀ name, n.Backs setup.assets name → name = c.backgroundName) : Staged c
  | shown {id : String} (shows : n.Shows id) (o : StageObject) :
      Staged
        { c with objects := c.objects.insert id o, animator := c.animator.cancelTarget id }
  | fadeIn {id : String} (shows : n.Shows id) (o : StageObject) (timed : ¬instant) (steps : Nat)
      (easing : Easing) :
      Staged
        { c with
          objects := c.objects.insert id o
          animator := ((c.animator.cancelTarget id).tween id (.alpha 0 1) steps easing).1 }
  | hidden {id : String} (hides : n.Hides id) :
      Staged { c with objects := c.objects.erase id, animator := c.animator.cancelTarget id }
  | fadeOut {id : String} (hides : n.Hides id) (timed : ¬instant) (steps : Nat) (easing : Easing) :
      Staged { c with animator := (c.animator.fadeOut id steps easing).1 }
  | write {id : String} {v : Property} (sets : n.Sets id v) :
      Staged { c with objects := c.objects.modify id (·.set v) }
  | tween {id : String} {v : Property} (sets : n.Sets id v) (timed : ¬instant ∧ 0 < n.duration)
      (f : Tween) (same : f.channel = v.channel) (steps : Nat) (easing : Easing) :
      Staged { c with animator := (c.animator.tween id f steps easing).1 }
  | background {name : String} (backs : n.Backs setup.assets name)
      (other : name ≠ c.backgroundName) (atOnce : instant ∨ n.duration = 0) :
      Staged { c with backgroundName := name }
  | crossfade {name : String} (backs : n.Backs setup.assets name)
      (other : name ≠ c.backgroundName) (timed : ¬instant ∧ 0 < n.duration)
      (locator : Option String) (halfSteps : Nat) :
      Staged { c with animator := (c.animator.crossfade name locator halfSteps).1 }
  | shake (kind : n.kind = .objectShake) (id : String) (amount : Single) (ms : Nat) :
      Staged
        { c with
          objects := c.objects.modify id fun o => { o with shaking := true, shakeAmount := amount }
          animator := (c.animator.shakeObject id ms).1 }
  | screen (kind : n.kind = .text ∨ n.kind = .screenShake ∨ n.kind = .screenFlash) (task : Task)
      (objects : task.part ≠ .objects) (background : task.part ≠ .background) (steps : Nat)
      (easing : Easing) :
      Staged { c with animator := ((c.animator.drop task.contends).push task steps easing).1 }

end

/-- The scenery of a session. -/
def Session.scenery (s : Session) : Scenery := s.stage.scenery s.animator

namespace Session

variable (setup : Setup) (instant : Bool) (n : Node) (s : Session)

/-- A node of the other kinds leaves the scenery alone. -/
theorem staged_same
    (kind : n.kind ∉ [.characterShow, .imageShow, .move, .scale, .rotate, .tint, .backgroundSet]) :
    Staged setup instant n s.scenery s.scenery := by
  simp only [List.mem_cons, List.not_mem_nil, or_false, not_or] at kind
  refine .same (fun id shows => shows.1.elim kind.1 kind.2.1) (fun id v sets => ?_)
    (fun name backs => absurd backs.1 kind.2.2.2.2.2.2)
  have := Node.kind_of_value? sets.1
  simp [kind] at this

variable {setup instant n s}

/-- Showing puts the object on stage as it is, or from nothing and then faded in. -/
theorem staged_show (kind : n.kind = .characterShow ∨ n.kind = .imageShow) :
    Staged setup instant n s.scenery (presentShow setup instant n s).scenery := by
  unfold presentShow
  dsimp only
  split
  next nameless =>
    refine .same (fun id shows => shows.2.2 (shows.2.1.symm.trans nameless)) ?_ ?_
    · intro id v sets
      have := Node.kind_of_value? sets.1
      rcases kind with kind | kind <;> simp [kind] at this
    · rintro name ⟨other, -⟩
      rcases kind with kind | kind <;> simp [kind] at other
  next named =>
    have shows : n.Shows (n.param 0) := ⟨kind, rfl, named⟩
    split
    next fading => exact .fadeIn shows _ (by rintro rfl; simp at fading) _ _
    next => exact .shown shows _

/-- Hiding takes the object off, or begins to fade it out. -/
theorem staged_hide (kind : n.kind = .characterHide ∨ n.kind = .imageHide) :
    Staged setup instant n s.scenery (presentHide setup instant n s).scenery := by
  have hides : n.Hides (n.param 0) := ⟨kind, rfl⟩
  unfold presentHide
  dsimp only
  split
  next timed => exact .fadeOut hides (by rintro rfl; simp at timed) _ _
  next =>
    simp only [removeObject_eq]
    exact .hidden hides

/-- A change writes the property, or starts a tween in its channel that takes time. -/
theorem staged_change {v : Property} (value : n.value? = some v) {time : TimeSpec}
    (duration : n.duration = time.ms) {tween : StageObject → Tween}
    (channel : ∀ o, (tween o).channel = v.channel) :
    Staged setup instant n s.scenery
      (presentChange setup instant (n.param 0) time tween (·.set v) s).scenery := by
  unfold presentChange
  split
  next absent =>
    have kind := Node.kind_of_value? value
    refine .same ?_ ?_ ?_
    · rintro id ⟨other | other, -⟩ <;> simp [other] at kind
    · rintro id v ⟨-, rfl⟩
      show s.stage.objects.contains _ = false
      rw [Table.contains_eq_isSome, absent]
      rfl
    · rintro name ⟨other, -⟩
      simp [other] at kind
  next o _ =>
    split
    next timed =>
      exact .tween ⟨value, rfl⟩ (by simpa [duration] using timed) _ (channel o) _ _
    next => exact .write ⟨value, rfl⟩

/-- Moving is a change of the position. -/
theorem staged_move (kind : n.kind = .move) :
    Staged setup instant n s.scenery (presentMove setup instant n s).scenery := by
  refine staged_change (v := .position (n.paramInt 1 0) (n.paramInt 2 0)) ?_ ?_ fun _ => rfl
  · rw [Node.value?, kind]
  · rw [Node.duration, kind]
    dsimp only
    split
    next => rfl
    next => rfl

/-- Scaling is a change of the two scales. -/
theorem staged_scale (kind : n.kind = .scale) :
    Staged setup instant n s.scenery (presentScale setup instant n s).scenery := by
  refine staged_change (v := .scale _ _) ?_ ?_ fun _ => rfl
  · rw [Node.value?, kind]
  · rw [Node.duration, kind]

/-- Turning is a change of the rotation. -/
theorem staged_rotate (kind : n.kind = .rotate) :
    Staged setup instant n s.scenery (presentRotate setup instant n s).scenery := by
  refine staged_change (v := .rotation _) ?_ ?_ fun _ => rfl
  · rw [Node.value?, kind]
  · rw [Node.duration, kind]

/-- Tinting is a change of the tint, also if the colour cannot be read and there is to be none. -/
theorem staged_tint (kind : n.kind = .tint) :
    Staged setup instant n s.scenery (presentTint setup instant n s).scenery := by
  unfold presentTint
  split
  next c target =>
    refine staged_change (v := .tint (some c)) ?_ ?_ fun _ => rfl
    · rw [Node.value?, kind, ← target]
    · rw [Node.duration, kind]
  next target =>
    refine .write (v := .tint none) ⟨?_, rfl⟩
    rw [Node.value?, kind, ← target]

/-- A background comes at once or by a crossfade, if it is found and not the one on stage. -/
theorem staged_background (kind : n.kind = .backgroundSet) :
    Staged setup instant n s.scenery
      (presentBackground setup instant (n.param 0) (n.param 1) s).scenery := by
  -- Where nothing comes of the node, the shape is the one that leaves all alone.
  have still (h : ∀ name, n.Backs setup.assets name → name = s.stage.backgroundName) :
      Staged setup instant n s.scenery s.scenery := by
    refine .same ?_ ?_ h
    · rintro id ⟨other | other, -⟩ <;> simp [other] at kind
    · intro id v sets
      have := Node.kind_of_value? sets.1
      simp [kind] at this
  have duration : n.duration = (TimeSpec.parse (n.param 1)).ms := by rw [Node.duration, kind]
  unfold presentBackground
  dsimp only
  split
  next skipped =>
    refine still fun name backs => ?_
    obtain ⟨-, rfl, named, -⟩ := backs
    exact skipped.resolve_left named
  next asked =>
    rw [not_or] at asked
    split
    next lost =>
      refine still fun name backs => ?_
      obtain ⟨-, rfl, -, found⟩ := backs
      split at lost
      next => contradiction
      next plain =>
        rw [Option.map_eq_none_iff] at lost
        simp [plain, lost] at found
    next locator found =>
      -- The background is found or cleared, and it depends on the time which shape it is.
      have backs : n.Backs setup.assets (n.param 0) := by
        refine ⟨kind, rfl, asked.1, ?_⟩
        split at found
        next clear => exact .inl clear
        next =>
          obtain ⟨place, here, -⟩ := Option.map_eq_some_iff.mp found
          exact .inr (Option.isSome_of_mem here)
      split
      next timed =>
        exact .crossfade backs asked.2 (by simpa [duration] using timed) _ _
      next atOnce =>
        refine .background backs asked.2 ?_
        rw [duration]
        grind

/-- Shaking an object marks it, with a task that takes the mark off. -/
theorem staged_objectShake (kind : n.kind = .objectShake) :
    Staged setup instant n s.scenery (presentObjectShake instant n s).scenery := by
  unfold presentObjectShake
  dsimp only
  split
  next => exact .shake kind (n.param 0) _ _
  next => exact staged_same _ _ _ _ (by rw [kind]; decide)

/-- A line starts its reveal, which is a task of the screen. -/
theorem staged_text (kind : n.kind = .text) :
    Staged setup instant n s.scenery (presentText setup instant n s).session.scenery := by
  unfold presentText
  dsimp only
  split
  next => exact staged_same _ _ _ s (by rw [kind]; decide)
  next => exact .screen (.inl kind) (.reveal ..) nofun nofun 1 .linear

/-- Shaking the screen starts a task of the screen, or does nothing. -/
theorem staged_screenShake (kind : n.kind = .screenShake) :
    Staged setup instant n s.scenery (presentScreenShake instant n s).scenery := by
  unfold presentScreenShake
  dsimp only
  split
  next => exact .screen (.inr (.inl kind)) (.screenShake _) nofun nofun 1 .linear
  next => exact staged_same _ _ _ s (by rw [kind]; decide)

/-- A flash starts a task of the screen, or does nothing to the scenery. -/
theorem staged_flash (kind : n.kind = .screenFlash) :
    Staged setup instant n s.scenery (presentFlash setup instant n s).scenery := by
  unfold presentFlash
  dsimp only
  split
  next => exact .screen (.inr (.inr kind)) (.flash _) nofun nofun _ _
  next => exact staged_same _ _ _ s (by rw [kind]; decide)

/-- Sounds are no part of the scenery. -/
theorem playSound_scenery (setup : Setup) (kind : AssetKind) (name : String) (volume : Nat)
    (s : Session) : (playSound setup kind name volume s).scenery = s.scenery := by
  unfold playSound
  split
  next => rfl
  next => rfl

/-- What presenting a node does to the scenery is one of the shapes. -/
theorem staged (setup : Setup) (instant : Bool) (n : Node) (s : Session) :
    Staged setup instant n s.scenery (present setup instant n s).session.scenery := by
  have same (kind : n.kind ∉
      [.characterShow, .imageShow, .move, .scale, .rotate, .tint, .backgroundSet])
      {t : Session} (h : t.scenery = s.scenery) : Staged setup instant n s.scenery t.scenery := by
    rw [h]
    exact staged_same setup instant n s kind
  unfold present
  cases kind : n.kind with
  | text => exact staged_text kind
  | backgroundSet => exact staged_background kind
  | characterShow => exact staged_show (.inl kind)
  | imageShow => exact staged_show (.inr kind)
  | characterHide => exact staged_hide (.inl kind)
  | imageHide => exact staged_hide (.inr kind)
  | move => exact staged_move kind
  | scale => exact staged_scale kind
  | rotate => exact staged_rotate kind
  | tint => exact staged_tint kind
  | objectShake => exact staged_objectShake kind
  | screenShake => exact staged_screenShake kind
  | screenFlash => exact staged_flash kind
  | musicPlay => exact same (by rw [kind]; decide) (playSound_scenery ..)
  | soundEffect =>
    refine same (by rw [kind]; decide) ?_
    dsimp only
    split
    next => rfl
    next => exact playSound_scenery ..
  | wait =>
    dsimp only
    rw [presentWait_session]
    exact same (by rw [kind]; decide) rfl
  | waitForClick =>
    dsimp only
    rw [presentWait_session]
    exact same (by rw [kind]; decide) rfl
  | choicePrompt =>
    refine same (by rw [kind]; decide) ?_
    dsimp only
    unfold presentChoice
    split
    next => rfl
    next => rfl
  | _ => exact same (by rw [kind]; decide) rfl

end Session

/-! ## Any number of nodes -/

/-- What can happen to the scenery without a node: a tick of the tasks, a task dropped or
started that works on none of it, and, if the stage is cleared on the way, that. -/
inductive Drift (dt : Nat) (cleared : Prop) (c : Scenery) : Scenery → Prop
  | tick : Drift dt cleared c (c.tick dt)
  | cancel {part : Part} {id : TaskId} (tags : c.animator.Tags part id)
      (objects : part ≠ .objects) (background : part ≠ .background) :
      Drift dt cleared c { c with animator := c.animator.cancel id }
  | screen (task : Task) (objects : task.part ≠ .objects) (background : task.part ≠ .background)
      (steps : Nat) (easing : Easing) :
      Drift dt cleared c
        { c with animator := ((c.animator.drop task.contends).push task steps easing).1 }
  | clear (h : cleared) : Drift dt cleared c { c with objects := .empty }

/-- What becomes of the scenery by these nodes in their order, with any number of other
changes before, between and after them. -/
inductive Staging (setup : Setup) (instant : Bool) (cleared : Prop) (c : Scenery) :
    List Node → Scenery → Prop
  | refl : Staging setup instant cleared c [] c
  | node {ns : List Node} {n : Node} {d e : Scenery} (before : Staging setup instant cleared c ns d)
      (staged : Staged setup instant n d e) : Staging setup instant cleared c (ns ++ [n]) e
  | drift {ns : List Node} {d e : Scenery} (before : Staging setup instant cleared c ns d)
      (drift : Drift setup.player.tickMs cleared d e) : Staging setup instant cleared c ns e

/-- A node adds tasks with new identities only. -/
theorem Staged.grows {setup : Setup} {instant : Bool} {n : Node} {c d : Scenery}
    (h : Staged setup instant n c d) : c.animator.Grows d.animator := by
  cases h with
  | same => exact .refl _
  | shown => exact .cancelTarget _ _
  | fadeIn => exact (Animator.Grows.cancelTarget _ _).trans (.start ..)
  | hidden => exact .cancelTarget _ _
  | fadeOut => exact .start ..
  | write => exact .refl _
  | tween => exact .start ..
  | background => exact .refl _
  | crossfade => exact .start ..
  | shake => exact .start ..
  | screen => exact .start ..

/-- So does whatever happens without a node. -/
theorem Drift.grows {dt : Nat} {cleared : Prop} {c d : Scenery} (h : Drift dt cleared c d) :
    c.animator.Grows d.animator := by
  cases h with
  | tick => exact .next _ dt
  | cancel => exact .cancel _ _
  | screen => exact .start ..
  | clear => exact .refl _

namespace Staging

variable {setup : Setup} {instant : Bool} {cleared : Prop} {c d : Scenery} {ns : List Node}
  {P : Scenery → Prop}

/-- A staging that does not clear the stage is one that may. -/
theorem mono {cleared' : Prop} (h : Staging setup instant cleared c ns d)
    (weaker : cleared → cleared') : Staging setup instant cleared' c ns d := by
  induction h with
  | refl => exact .refl
  | node _ staged ih => exact ih.node staged
  | drift _ drift ih =>
    cases drift with
    | tick => exact ih.drift .tick
    | cancel tags objects background => exact ih.drift (.cancel tags objects background)
    | screen task objects background => exact ih.drift (.screen task objects background _ _)
    | clear h => exact ih.drift (.clear (weaker h))

/-- Two stagings one after the other are one, with the nodes of both. -/
theorem trans {ms : List Node} {e : Scenery} (h : Staging setup instant cleared c ns d)
    (h' : Staging setup instant cleared d ms e) : Staging setup instant cleared c (ns ++ ms) e := by
  induction h' with
  | refl => rwa [List.append_nil]
  | node _ staged ih =>
    rw [← List.append_assoc]
    exact ih.node staged
  | drift _ drift ih => exact ih.drift drift

/-- Tasks come with new identities only. -/
theorem grows (h : Staging setup instant cleared c ns d) : c.animator.Grows d.animator := by
  induction h with
  | refl => exact .refl _
  | node _ staged ih => exact ih.trans staged.grows
  | drift _ drift ih => exact ih.trans drift.grows

/-- A staging keeps what its nodes and all other changes keep. -/
theorem keeps (h : Staging setup instant cleared c ns d) (start : P c)
    (node : ∀ n ∈ ns, ∀ d e, P d → Staged setup instant n d e → P e)
    (drift : ∀ d e, P d → Drift setup.player.tickMs cleared d e → P e) : P d := by
  induction h with
  | refl => exact start
  | node _ staged ih =>
    have before := ih fun n hn => node n (List.mem_append_left _ hn)
    exact node _ (List.mem_append_right _ List.mem_cons_self) _ _ before staged
  | drift _ change ih => exact drift _ _ (ih node) change

/-- A staging is one up to any of its nodes, what that node does, and one from there on. -/
theorem split (h : Staging setup instant cleared c ns d) {before after : List Node} {n : Node}
    (split : ns = before ++ n :: after) :
    ∃ e f, Staging setup instant cleared c before e ∧ Staged setup instant n e f ∧
      Staging setup instant cleared f after d := by
  induction h generalizing after with
  | refl => simp at split
  | node earlier staged ih =>
    -- The staging ends with the node itself, or with the last one after it.
    rcases after.eq_nil_or_concat with rfl | ⟨others, last, rfl⟩
    · obtain ⟨rfl, same⟩ := List.append_inj' split rfl
      cases same
      exact ⟨_, _, earlier, staged, .refl⟩
    · rw [List.concat_eq_append, ← List.cons_append, ← List.append_assoc] at split
      obtain ⟨rfl, same⟩ := List.append_inj' split rfl
      cases same
      obtain ⟨e, f, first, middle, rest⟩ := ih rfl
      rw [List.concat_eq_append]
      exact ⟨e, f, first, middle, rest.node staged⟩
  | drift _ change ih =>
    obtain ⟨e, f, first, middle, rest⟩ := ih split
    exact ⟨e, f, first, middle, rest.drift change⟩

/-- What a node on the way brings about is there in the end if the later nodes and all
other changes keep it. -/
theorem since (h : Staging setup instant cleared c ns d) {before after : List Node} {n : Node}
    (split : ns = before ++ n :: after) (brings : ∀ d e, Staged setup instant n d e → P e)
    (node : ∀ m ∈ after, ∀ d e, P d → Staged setup instant m d e → P e)
    (drift : ∀ d e, P d → Drift setup.player.tickMs cleared d e → P e) : P d := by
  obtain ⟨e, f, -, staged, rest⟩ := h.split split
  exact rest.keeps (brings e f staged) node drift

end Staging

/-- Applying a block instantly stages the nodes it presents. -/
theorem Session.staging_replayAll (setup : Setup) (s : Session) (b : Block) :
    Staging setup true False s.scenery (replayedAll setup s b) (replayAll setup s b).scenery := by
  rw [← foldl_replayedAll]
  generalize replayedAll setup s b = ns
  induction ns using List.reverseRecOn with
  | nil => exact .refl
  | append_singleton ns n ih =>
    rw [List.foldl_append]
    exact ih.node (staged setup true n _)

end VisualNovel
