import VisualNovel.Proofs.Player.Performance

/-!
# The background that is shown in the end

A node can change the background at once or behind a crossfade, which shows it only when
the stage is covered. A new crossfade takes the place of one in progress. A change at once
does not, nor does a node that asks for the background already shown; so a crossfade that
was still to show another one then does so later.

> `Staging.settles`: what is shown or under way changes with the nodes that ask for a
> background alone.

> `Player.background_settles`: the background that is shown once no crossfade is in
> progress.

> `Player.background_overtaken`: it need not be the one asked for last.
-/

namespace VisualNovel

open Change

/-- The background a node asks for, if it is found or clears it. -/
def Node.backdrop? (assets : Assets) (n : Node) : Option String :=
  if n.Backs assets (n.param 0) then some (n.param 0) else none

/-- The background asked for last, or the one shown before. -/
def lastBackdrop (assets : Assets) (ns : List Node) (shown : String) : String :=
  ns.foldl (fun shown n => (n.backdrop? assets).getD shown) shown

variable {setup : Setup} {instant : Bool} {cleared : Prop} {n : Node} {ns : List Node}
  {c d : Scenery} {name : String}

theorem Node.backdrop?_eq_some_iff {assets : Assets} :
    n.backdrop? assets = some name ↔ n.Backs assets name := by
  unfold Node.backdrop?
  constructor
  · intro h
    split at h
    next backs => exact Option.some.inj h ▸ backs
    next => contradiction
  · intro backs
    obtain rfl := backs.2.1
    rw [if_pos backs]

theorem Node.backdrop?_eq_none_iff {assets : Assets} :
    n.backdrop? assets = none ↔ ∀ name, ¬n.Backs assets name := by
  rw [Option.eq_none_iff_forall_ne_some]
  exact forall_congr' fun name => not_congr Node.backdrop?_eq_some_iff

/-! ## One step -/

/-- What a node that asks for a background does: nothing if it is shown, else it shows it at
once or begins a crossfade. -/
theorem Staged.backed (h : Staged setup instant n c d) (backs : n.Backs setup.assets name) :
    name = c.backgroundName ∧ d = c ∨
      name ≠ c.backgroundName ∧ (instant ∨ n.duration = 0) ∧ d = { c with backgroundName := name } ∨
      name ≠ c.backgroundName ∧ (¬instant ∧ 0 < n.duration) ∧ ∃ locator halfSteps,
        d = { c with animator := (c.animator.crossfade name locator halfSteps).1 } := by
  have kind := backs.1
  cases h with
  | same _ _ shown => exact .inl ⟨shown name backs, rfl⟩
  | background backs' other atOnce =>
    obtain rfl := backs.2.1.symm.trans backs'.2.1
    exact .inr (.inl ⟨other, atOnce, rfl⟩)
  | crossfade backs' other timed =>
    obtain rfl := backs.2.1.symm.trans backs'.2.1
    exact .inr (.inr ⟨other, timed, _, _, rfl⟩)
  | shown shows => grind [Node.Shows]
  | fadeIn shows => grind [Node.Shows]
  | hidden hides => grind [Node.Hides]
  | fadeOut hides => grind [Node.Hides]
  | write sets => grind [Node.kind_of_value? sets.1]
  | tween sets => grind [Node.kind_of_value? sets.1]
  | shake other => grind
  | screen other => grind

/-- A node that asks for no background, or for the one shown, leaves the background and the
crossfades alone. -/
theorem Staged.quiet (h : Staged setup instant n c d)
    (silent : ∀ name, n.Backs setup.assets name → name = c.backgroundName) :
    d.animator.awaits = c.animator.awaits ∧ d.backgroundName = c.backgroundName := by
  cases h with
  | same => exact ⟨rfl, rfl⟩
  | shown => exact ⟨c.animator.awaits_cancelTarget _, rfl⟩
  | fadeIn =>
    refine ⟨?_, rfl⟩
    exact (Animator.awaits_start _ (.tween _ (.alpha 0 1)) nofun _ _).trans
      (c.animator.awaits_cancelTarget _)
  | hidden => exact ⟨c.animator.awaits_cancelTarget _, rfl⟩
  | @fadeOut id => exact ⟨c.animator.awaits_start (.fadeOut id) nofun _ _, rfl⟩
  | write => exact ⟨rfl, rfl⟩
  | @tween id _ _ _ f => exact ⟨c.animator.awaits_start (.tween id f) nofun _ _, rfl⟩
  | background backs other => exact absurd (silent _ backs) other
  | crossfade backs other => exact absurd (silent _ backs) other
  | shake _ id _ ms => exact ⟨c.animator.awaits_start (.objectShake id ms) nofun _ _, rfl⟩
  | screen _ task _ background => exact ⟨c.animator.awaits_start task background _ _, rfl⟩

/-- Without a node only a tick of a crossfade changes the background. -/
theorem Drift.quiet {dt : Nat} (h : Drift dt cleared c d) :
    d = c.tick dt ∨
      d.animator.awaits = c.animator.awaits ∧ d.backgroundName = c.backgroundName := by
  cases h with
  | tick => exact .inl rfl
  | cancel tags _ background =>
    refine .inr ⟨Animator.awaits_cancel fun s hs same => ?_, rfl⟩
    exact Task.awaits?_of_part ((tags.part s hs same).symm ▸ background)
  | screen task _ background => exact .inr ⟨c.animator.awaits_start task background _ _, rfl⟩
  | clear => exact .inr ⟨rfl, rfl⟩

theorem Scenery.Rests.quiet (h : c.Rests name)
    (quiet : d.animator.awaits = c.animator.awaits ∧ d.backgroundName = c.backgroundName) :
    d.Rests name := ⟨quiet.1.trans h.awaits, quiet.2.trans h.shown⟩

theorem Scenery.Settles.quiet (h : c.Settles name)
    (quiet : d.animator.awaits = c.animator.awaits ∧ d.backgroundName = c.backgroundName) :
    d.Settles name :=
  h.imp (·.quiet quiet) fun under => quiet.1.trans under

/-! ## Any number of steps -/

theorem Drift.settles {dt : Nat} (h : Drift dt cleared c d) (before : c.Settles name) :
    d.Settles name := by
  rcases h.quiet with rfl | quiet
  · exact before.tick dt
  · exact before.quiet quiet

/-- What is shown or under way stays so until a node asks for another background. -/
theorem Staging.settles (h : Staging setup instant cleared c ns d) (before : c.Settles name)
    (silent : ∀ m ∈ ns, ∀ name, ¬m.Backs setup.assets name) : d.Settles name :=
  h.keeps (P := (·.Settles name)) before
    (fun m hm _ _ before staged => before.quiet
      (staged.quiet fun other backs => absurd backs (silent m hm other)))
    fun _ _ before drift => drift.settles before

/-- Applied instantly, nodes show the background they ask for last. -/
theorem Staging.rests (h : Staging setup true cleared c ns d) (before : c.Rests name) :
    d.Rests (lastBackdrop setup.assets ns name) := by
  induction h with
  | refl => exact before
  | @node ns n d e _ staged ih =>
    -- The last node decides if it asks for a background, and else the ones before it.
    unfold lastBackdrop at ih ⊢
    rw [List.foldl_append, List.foldl_cons, List.foldl_nil]
    cases asked : n.backdrop? setup.assets with
    | none =>
      rw [Node.backdrop?_eq_none_iff] at asked
      exact ih.quiet (staged.quiet fun other backs => absurd backs (asked other))
    | some other =>
      rw [Node.backdrop?_eq_some_iff] at asked
      show e.Rests other
      rcases staged.backed asked with ⟨rfl, rfl⟩ | ⟨-, -, rfl⟩ | ⟨-, ⟨timed, -⟩, -⟩
      · exact ⟨ih.awaits, rfl⟩
      · exact ⟨ih.awaits, rfl⟩
      · exact absurd rfl timed
  | drift _ drift ih =>
    rcases drift.quiet with rfl | quiet
    · exact ih.tick _
    · exact ih.quiet quiet

/-- A node that asks for a background without delay, or for the one shown, leaves the
crossfade in progress, if there is one, to show its own; otherwise its background is the
one that is shown in the end. -/
theorem Staged.settles (h : Staged setup false n c d) (backs : n.Backs setup.assets name)
    {other : String} (before : c.Settles other) :
    d.Settles (if 0 < n.duration ∧ name ≠ c.backgroundName then name
      else c.animator.awaits.head?.getD name) := by
  rcases h.backed backs with ⟨shown, rfl⟩ | ⟨-, atOnce, rfl⟩ | ⟨asked, ⟨-, timed⟩, _, _, rfl⟩
  · rw [if_neg (by simp [shown])]
    rcases before with rests | under
    · rw [rests.awaits]
      exact .inl ⟨rests.awaits, shown.symm⟩
    · rw [under]
      exact .inr under
  · have still : n.duration = 0 := atOnce.resolve_left Bool.false_ne_true
    rw [if_neg (by simp [still])]
    rcases before with rests | under
    · rw [rests.awaits]
      exact .inl ⟨rests.awaits, rfl⟩
    · rw [under]
      exact .inr under
  · rw [if_pos ⟨timed, asked⟩]
    exact .inr (Animator.awaits_crossfade ..)

namespace Player

variable {p q r : Player} {ns : List Node}

theorem opened_rests (p : Player) (scenes : Block) (index : Nat) :
    (p.opened scenes index).scenery.Rests
      (lastBackdrop p.setup.assets (p.prelude scenes index) "") :=
  (p.opened_staging scenes index).rests ⟨rfl, rfl⟩

/-- A session begins with its background shown and none under way. -/
theorem Begun.rests (h : Begun p) : p.scenery.Rests p.session.stage.backgroundName := by
  cases h with
  | opened p scenes index => exact ⟨(p.opened_rests scenes index).awaits, rfl⟩
  | takenUp h =>
    refine ⟨Animator.awaits_eq_nil fun s hs => ?_, rfl⟩
    have silent : s ∈ [] := (takenUp_cases h).1 ▸ hs
    contradiction

/-- At every moment of a session some background is shown or under way. -/
theorem Begun.exists_settles (h : Begun p) (plays : Plays p ns q) :
    ∃ name, q.scenery.Settles name := by
  refine (h.staging plays).keeps (P := fun c => ∃ name, c.Settles name)
    ⟨_, .inl h.rests⟩ (fun m _ c d settles staged => ?_)
    fun c d ⟨name, settles⟩ drift => ⟨name, drift.settles settles⟩
  obtain ⟨name, settles⟩ := settles
  cases asked : m.backdrop? p.setup.assets with
  | none =>
    rw [Node.backdrop?_eq_none_iff] at asked
    exact ⟨name, settles.quiet (staged.quiet fun other backs => absurd backs (asked other))⟩
  | some other => exact ⟨_, staged.settles (Node.backdrop?_eq_some_iff.mp asked) settles⟩

/-- A session that is taken up shows what the saved one showed or was still to show. -/
theorem takenUp_background (settles : ∃ name, r.scenery.Settles name)
    (h : p.takenUp r.snapshot = .ok q) :
    q.session.stage.backgroundName =
      r.session.animator.awaits.head?.getD r.session.stage.backgroundName := by
  have saved : q.session.stage.backgroundName =
      r.session.animator.awaits.foldl (fun _ name => name) r.session.stage.backgroundName :=
    (takenUp_cases h).2.2.2.trans (Animator.finishAll_backgroundName ..)
  obtain ⟨name, rests | under⟩ := settles
  · rw [saved, show r.session.animator.awaits = [] from rests.awaits]
    rfl
  · rw [saved, show r.session.animator.awaits = [name] from under]
    rfl

/-- A script starts with the background asked for last by the nodes applied before its loop
begins; a session taken up from another one starts with the background that one showed or
was still to show. From then on, once no crossfade is in progress, the background is still
the one at the start, if no node has asked for one since; and else that of the last node
that did, unless it asked without delay, or for the background then shown, while a crossfade
was still to show another: that one is shown then. -/
theorem background_settles {b : Player} (begun : Begun b) :
    (∀ p scenes index, b = opened p scenes index → b.session.stage.backgroundName =
      lastBackdrop p.setup.assets (p.prelude scenes index) "") ∧
    (∀ c ns r p, Begun c → Plays c ns r → takenUp p r.snapshot = .ok b →
      b.session.stage.backgroundName =
        r.session.animator.awaits.head?.getD r.session.stage.backgroundName) ∧
    (∀ ns q, Plays b ns q → (∀ m ∈ ns, ∀ name, ¬m.Backs b.setup.assets name) →
      (∀ s ∈ q.session.animator.slots, Animator.isCrossfade s.task = false) →
        q.session.stage.backgroundName = b.session.stage.backgroundName) ∧
    ∀ before r n name after q, Plays b before r → r.state = .running →
      r.frame.presenting = some n → n.Backs b.setup.assets name → Plays r.step.1 after q →
      (∀ m ∈ after, ∀ name, ¬m.Backs b.setup.assets name) →
      (∀ s ∈ q.session.animator.slots, Animator.isCrossfade s.task = false) →
        q.session.stage.backgroundName =
          if 0 < n.duration ∧ name ≠ r.session.stage.backgroundName then name
          else r.session.animator.awaits.head?.getD name := by
  refine ⟨?_, fun c ns r p before plays => takenUp_background (before.exists_settles plays),
    fun ns q plays silent ended => ?_,
    fun before r n name after q plays running presenting backs later silent ended => ?_⟩
  · rintro p scenes index rfl
    exact (p.opened_rests scenes index).shown
  · exact ((begun.staging plays).settles (.inl begun.rests) silent).shown ended
  · obtain ⟨other, settles⟩ := begun.exists_settles plays
    have goesOn : n.next = .proceed := by
      unfold Node.next
      rw [backs.1]
    obtain ⟨staged, staging⟩ := begun.presents plays running presenting goesOn later
    exact (staging.settles (staged.settles backs settles) silent).shown ended

/-- A background that is crossfaded to in the place of another one. -/
def dusk : Block :=
  [.directive "@bg" ["a", "320"], .directive "@bg" ["b", "320"], .dialogue "" "dusk"]

/-- The first crossfade is dropped: once the second is over, its background is shown. -/
theorem background_settles_dusk :
    let r := ((new ⟨.any, {}, {}⟩ .accepting).opened dusk 0).step.1
    let q := tick^[40] r.step.1.run
    r.session.animator.awaits = ["a"] ∧ q.session.animator.slots = [] ∧
      q.session.stage.backgroundName = "b" := by
  intro r q
  let p := new ⟨.any, {}, {}⟩ .accepting
  let n := r.frame.presenting.get (by decide +kernel)
  have plays : Plays (p.opened dusk 0) _ r := Plays.refl.round rfl
  obtain ⟨still, -⟩ := plays_ticks 40 r.step.1.run (by decide +kernel)
  have later : Plays r.step.1 (r.step.1.presentedInRun ++ []) q :=
    (plays_run (by decide +kernel)).trans still
  have backs : n.Backs p.setup.assets "b" := by decide +kernel
  have silent : ∀ m ∈ r.step.1.presentedInRun ++ [], ∀ name, ¬m.Backs p.setup.assets name :=
    fun m hm => Node.backdrop?_eq_none_iff.mp
      ((show ∀ m ∈ r.step.1.presentedInRun ++ [], m.backdrop? p.setup.assets = none by
        decide +kernel) m hm)
  have idle : q.session.animator.slots = [] := by decide +kernel
  have shown := (background_settles (.opened p dusk 0)).2.2.2 _ r n "b" _ q plays
    (by decide +kernel) (Option.some_get _).symm backs later silent (by simp [idle])
  rw [if_pos (by decide +kernel)] at shown
  exact ⟨by decide +kernel, idle, shown⟩

/-- A background that is asked for at once while a crossfade to another one is under way. -/
def overtaken : Block :=
  [.directive "@bg" ["a", "320"], .directive "@bg" ["b"], .dialogue "" "there"]

/-- The crossfade shows its background over the one asked for after it. -/
theorem background_overtaken :
    ∃ (r q : Player) (before after : List Node) (n : Node),
      Plays ((new ⟨.any, {}, {}⟩ .accepting).opened overtaken 0) before r ∧ r.state = .running ∧
        r.frame.presenting = some n ∧ n.Backs .any "b" ∧ Plays r.step.1 after q ∧
        (∀ m ∈ after, ∀ name, ¬m.Backs .any name) ∧ q.isWaiting ∧
        q.session.animator.slots = [] ∧ q.session.stage.backgroundName = "a" := by
  let p := new ⟨.any, {}, {}⟩ .accepting
  let r := (p.opened overtaken 0).step.1
  let q := tick^[25] r.step.1.run
  let n := r.frame.presenting.get (by decide +kernel)
  obtain ⟨still, waits⟩ := plays_ticks 25 r.step.1.run (by decide +kernel)
  have later : Plays r.step.1 (r.step.1.presentedInRun ++ []) q :=
    (plays_run (by decide +kernel)).trans still
  have silent : ∀ m ∈ r.step.1.presentedInRun ++ [], m.backdrop? .any = none := by
    decide +kernel
  exact ⟨r, q, _, _, n, Plays.refl.round rfl, by decide +kernel, (Option.some_get _).symm,
    by decide +kernel, later, fun m hm => Node.backdrop?_eq_none_iff.mp (silent m hm), waits,
    by decide +kernel, by decide +kernel⟩

end Player

end VisualNovel
