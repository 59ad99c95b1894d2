import VisualNovel.Proofs.Player.Performance
import VisualNovel.Proofs.Player.Reachable

/-!
# Objects that stay on stage

A fade-out takes an object off long after the node that asked for it. An object that is
shown again in the meantime stays, because showing it drops every task on its name; and
later only a node that hides it starts another fade-out.

> `Scenery.Holds.staged`, `Scenery.Holds.drift`: an object that was shown stays until a node
> hides it or the stage is cleared.

> `Animator.Exclusive`: no object fades in and out at once, at any moment a host can bring
> about.

> `Player.shown_stays`: both, for every session of a player.
-/

namespace VisualNovel

open Change

/-! ## An object that stays -/

/-- Of the tasks that are left once those of an object are dropped, none takes it off. -/
theorem Animator.ne_fadeOut_of_cancelTarget {a : Animator} {id : String} {s : Slot}
    (hs : s ∈ (a.cancelTarget id).slots) : s.task ≠ .fadeOut id := by
  intro fading
  have other := (List.mem_filter.mp hs).2
  rw [fading] at other
  simp [Task.target?] at other

theorem Animator.target_of_isTween {id target : String} {channel : Channel} {tween : Tween}
    (h : isTween target channel (.tween id tween)) : id = target := by
  simp only [isTween, Bool.and_eq_true, beq_iff_eq] at h
  exact h.1

theorem Animator.isTween_of_channel_ne {id target : String} {channel : Channel} {tween : Tween}
    (h : tween.channel ≠ channel) : isTween target channel (.tween id tween) = false := by
  simp [isTween, h]

/-- An object is on stage, and nothing under way will take it off. -/
structure Scenery.Holds (c : Scenery) (id : String) : Prop where
  present : c.objects.contains id
  lasting : ∀ s ∈ c.animator.slots, s.task ≠ .fadeOut id

namespace Scenery.Holds

variable {setup : Setup} {instant : Bool} {n : Node} {c d : Scenery} {id : String}

/-- What is put on stage is held there, since all tasks of its name are dropped. -/
theorem of_shows (shows : n.Shows id) (h : Staged setup instant n c d) : d.Holds id := by
  have kept : ∀ s ∈ (c.animator.cancelTarget id).slots, s.task ≠ .fadeOut id :=
    fun s hs => Animator.ne_fadeOut_of_cancelTarget hs
  cases h with
  | same silent => exact absurd shows (silent id)
  | shown shows' o =>
    obtain rfl := shows'.2.1.symm.trans shows.2.1
    exact ⟨by rw [Table.contains_insert]; simp, kept⟩
  | fadeIn shows' o =>
    obtain rfl := shows'.2.1.symm.trans shows.2.1
    refine ⟨by rw [Table.contains_insert]; simp, ?_⟩
    exact Animator.forall_start (fun s hs _ => kept s hs) nofun
  | hidden hides => grind [Node.Shows, Node.Hides]
  | fadeOut hides => grind [Node.Shows, Node.Hides]
  | write sets => grind [Node.Shows, Node.kind_of_value? sets.1]
  | tween sets => grind [Node.Shows, Node.kind_of_value? sets.1]
  | background backs => grind [Node.Shows, Node.Backs]
  | crossfade backs => grind [Node.Shows, Node.Backs]
  | shake other => grind [Node.Shows]
  | screen other => grind [Node.Shows]

/-- Only a node that hides it starts to take an object off. -/
theorem staged (h : c.Holds id) (stays : ¬n.Hides id) (staged : Staged setup instant n c d) :
    d.Holds id := by
  cases staged with
  | same => exact h
  | shown shows o =>
    refine ⟨by rw [Table.contains_insert, h.present, Bool.or_true], fun s hs => ?_⟩
    exact h.lasting s (List.mem_filter.mp hs).1
  | fadeIn shows o =>
    refine ⟨by rw [Table.contains_insert, h.present, Bool.or_true],
      Animator.forall_start (fun s hs _ => ?_) nofun⟩
    exact h.lasting s (List.mem_filter.mp hs).1
  | @hidden name hides =>
    have other : id ≠ name := fun same => stays (same ▸ hides)
    refine ⟨by rw [Table.contains_erase, h.present]; simp [other], fun s hs => ?_⟩
    exact h.lasting s (List.mem_filter.mp hs).1
  | @fadeOut name hides =>
    refine ⟨h.present, Animator.forall_start (fun s hs _ => h.lasting s hs) fun same => ?_⟩
    cases same
    exact stays hides
  | write => exact ⟨by rw [Table.contains_modify]; exact h.present, h.lasting⟩
  | tween => exact ⟨h.present, Animator.forall_start (fun s hs _ => h.lasting s hs) nofun⟩
  | background => exact ⟨h.present, h.lasting⟩
  | crossfade => exact ⟨h.present, Animator.forall_start (fun s hs _ => h.lasting s hs) nofun⟩
  | shake =>
    exact ⟨by rw [Table.contains_modify]; exact h.present,
      Animator.forall_start (fun s hs _ => h.lasting s hs) nofun⟩
  | screen _ task objects =>
    refine ⟨h.present, Animator.forall_start (fun s hs _ => h.lasting s hs) fun same => ?_⟩
    cases same
    exact objects rfl

/-- Unless the stage is cleared, an object that is held stays through everything else. -/
theorem drift {dt : Nat} {cleared : Prop} (h : c.Holds id) (uncleared : ¬cleared)
    (drift : Drift dt cleared c d) : d.Holds id := by
  cases drift with
  | tick =>
    refine ⟨by rw [tick_contains h.lasting]; exact h.present,
      forall_tick fun s hs t next fading => ?_⟩
    exact h.lasting s hs (Slot.fadeOut_next next fading)
  | cancel => exact ⟨h.present, fun s hs => h.lasting s (List.mem_filter.mp hs).1⟩
  | screen task objects =>
    refine ⟨h.present, Animator.forall_start (fun s hs _ => h.lasting s hs) fun same => ?_⟩
    cases same
    exact objects rfl
  | clear h => exact absurd h uncleared

end Scenery.Holds

/-! ## No object fades in and out at once -/

namespace Animator

variable {a : Animator}

/-- No object has a tween of its opacity and a fade-out. -/
def Exclusive (a : Animator) : Prop :=
  ∀ id, ∀ s ∈ a.slots, ∀ t ∈ a.slots, isTween id .alpha s.task → t.task ≠ .fadeOut id

/-- Leaving out tasks brings no two together. -/
theorem Exclusive.sublist {b : Animator} (h : a.Exclusive) (sub : b.slots.Sublist a.slots) :
    b.Exclusive := fun id s hs t ht => h id s (sub.mem hs) t (sub.mem ht)

/-- A task may be started next to those it does not drop, if it fades none of their objects
the other way. -/
theorem Exclusive.start (h : a.Exclusive) {test : Task → Bool} {task : Task} {steps : Nat}
    {easing : Easing}
    (fadesIn : ∀ id, isTween id .alpha task → ∀ t ∈ a.slots, test t.task = false →
      t.task ≠ .fadeOut id)
    (fadesOut : ∀ id, task = .fadeOut id → ∀ s ∈ a.slots, test s.task = false →
      isTween id .alpha s.task = false) :
    ((a.drop test).push task steps easing).1.Exclusive := by
  intro id
  refine forall_start (fun s hs keptIn => ?_) ?_
  · refine forall_start (fun t ht _ into => h id s hs t ht into) fun into out => ?_
    rw [fadesOut id out s hs keptIn] at into
    contradiction
  · refine forall_start (fun t ht kept into => fadesIn id into t ht kept) fun into out => ?_
    rw [out] at into
    contradiction

/-- So may a task that fades nothing. -/
theorem Exclusive.start_other (h : a.Exclusive) {test : Task → Bool} {task : Task} {steps : Nat}
    {easing : Easing} (notIn : ∀ id, isTween id .alpha task = false)
    (notOut : ∀ id, task ≠ .fadeOut id) : ((a.drop test).push task steps easing).1.Exclusive :=
  h.start (fun id into => absurd into (by simp [notIn id])) fun id out => absurd out (notOut id)

/-- A tick keeps tasks exclusive: those that go on are of the sort they were. -/
theorem Exclusive.next (h : a.Exclusive) (dt : Nat) :
    Exclusive { a with slots := a.slots.filterMap (Slot.next dt) } := by
  intro id s hs t ht into out
  obtain ⟨s', hs', nextIn⟩ := List.mem_filterMap.mp hs
  obtain ⟨t', ht', nextOut⟩ := List.mem_filterMap.mp ht
  have into' : isTween id .alpha s'.task :=
    (Slot.contends_next nextIn (.tween id (.alpha 0 0))).2.symm.trans into
  exact h id s' hs' t' ht' into' (Slot.fadeOut_next nextOut out)

end Animator

/-- Nodes that set a property do not set the opacity. -/
theorem Node.channel_ne_alpha {n : Node} {v : Property} (h : n.value? = some v) :
    v.channel ≠ .alpha := by
  unfold Node.value? at h
  split at h <;> cases h <;> nofun

/-- What a node starts excludes none of the tasks that it does not drop. -/
theorem Staged.exclusive {setup : Setup} {instant : Bool} {n : Node} {c d : Scenery}
    (h : Staged setup instant n c d) (before : c.animator.Exclusive) : d.animator.Exclusive := by
  cases h with
  | same => exact before
  | shown => exact before.sublist List.filter_sublist
  | @fadeIn id =>
    -- What fades out was dropped when the object was put on stage.
    refine (before.sublist List.filter_sublist).start (fun name into t ht _ out => ?_) nofun
    obtain rfl : id = name := Animator.target_of_isTween into
    exact Animator.ne_fadeOut_of_cancelTarget ht out
  | hidden => exact before.sublist List.filter_sublist
  | fadeOut =>
    refine before.start nofun fun name out s _ kept => ?_
    cases out
    exact kept
  | write => exact before
  | tween sets _ f same =>
    refine before.start_other (fun name => Animator.isTween_of_channel_ne ?_) nofun
    rw [same]
    exact Node.channel_ne_alpha sets.1
  | background => exact before
  | crossfade => exact before.start_other (fun _ => rfl) nofun
  | shake => exact before.start_other (fun _ => rfl) nofun
  | screen _ task objects =>
    refine before.start_other (fun name => ?_) fun name out => objects (out ▸ rfl)
    cases task with
    | tween => exact absurd rfl objects
    | _ => rfl

theorem Drift.exclusive {dt : Nat} {cleared : Prop} {c d : Scenery} (h : Drift dt cleared c d)
    (before : c.animator.Exclusive) : d.animator.Exclusive := by
  cases h with
  | tick => exact before.next dt
  | cancel => exact before.sublist List.filter_sublist
  | screen task objects =>
    refine before.start_other (fun name => ?_) fun name out => objects (out ▸ rfl)
    cases task with
    | tween => exact absurd rfl objects
    | _ => rfl
  | clear => exact before

theorem Staging.exclusive {setup : Setup} {instant : Bool} {cleared : Prop} {c d : Scenery}
    {ns : List Node} (h : Staging setup instant cleared c ns d) (before : c.animator.Exclusive) :
    d.animator.Exclusive :=
  h.keeps (P := fun c => c.animator.Exclusive) before (fun _ _ _ _ before staged =>
    staged.exclusive before) fun _ _ before drift => drift.exclusive before

namespace Player

variable {p q r : Player} {ns : List Node}

/-- What holds of the tasks of a player at every moment. -/
structure Steady (p : Player) : Prop where
  tagged : p.Tagged
  exclusive : p.session.animator.Exclusive

theorem Plays.steady (h : Plays p ns q) (before : p.Steady) : q.Steady where
  tagged := (h.performs before.tagged).tagged
  exclusive := (h.performs before.tagged).staging.exclusive before.exclusive

/-- Sessions begin steady. -/
theorem Begun.steady (h : Begun p) : p.Steady := by
  refine ⟨h.tagged, ?_⟩
  cases h with
  | opened p scenes index =>
    exact (p.opened_staging scenes index).exclusive fun _ _ hs => absurd hs List.not_mem_nil
  | takenUp h =>
    unfold Animator.Exclusive
    rw [(takenUp_cases h).1]
    nofun

/-- A player without tasks that keeps no identity is steady. -/
theorem steady_of_silent (slots : p.session.animator.slots = []) (reveal : p.reveal = none)
    (fadeIn : ∀ id, p.fadeIn = some id → id ≤ p.session.animator.lastId) : p.Steady where
  tagged :=
    { issued := by unfold Animator.Issued; rw [slots]; nofun
      reveal := by rw [reveal]; nofun
      fadeIn := fun id hid => ⟨fadeIn id hid, by rw [slots]; nofun⟩ }
  exclusive := by unfold Animator.Exclusive; rw [slots]; nofun

/-- A session that was disposed of is steady: no task is left. -/
theorem Tagged.steady_dispose (h : p.Tagged) : p.dispose.Steady := by
  obtain ⟨audio, loaded, hp⟩ :=
    ((p.withAnimator p.session.animator.cancelAll).call .stop).releasePool_eq
  refine steady_of_silent ?_ rfl ?_
  · unfold Player.dispose
    rw [hp]
    rfl
  · unfold Player.dispose
    rw [hp]
    exact fun id hid => (h.fadeIn id hid).le

/-- Every player a host can come to is steady. -/
theorem Reachable.steady (h : Reachable p) : p.Steady := by
  induction h with
  | new setup audio => exact steady_of_silent rfl rfl nofun
  | @start p scenes index _ _ =>
    exact (plays_run (p := p.opened scenes index) rfl).steady (Begun.opened p scenes index).steady
  | @tick p _ ih =>
    obtain ⟨ns, plays⟩ := p.plays_tick
    exact plays.steady ih
  | @advance p _ ih =>
    obtain ⟨ns, plays⟩ := p.plays_advance
    exact plays.steady ih
  | @choose p target _ ih =>
    obtain ⟨ns, plays⟩ := p.plays_choose target
    exact plays.steady ih
  | @chooseOption p index _ ih =>
    obtain ⟨ns, plays⟩ := p.plays_chooseOption index
    exact plays.steady ih
  | dispose _ ih => exact ih.tagged.steady_dispose
  | restore _ _ _ hr _ _ =>
    obtain ⟨q, taken, ⟨running, rfl⟩ | rfl⟩ := restore_cases hr
    · exact (plays_run running).steady (Begun.takenUp taken).steady
    · exact (Begun.takenUp taken).steady

/-! ## Whole sessions -/

/-- In every session of a script, an object that a node showed, applied before the loop
began or presented by it, is on stage until a node hides it or the stage is cleared at the
end. And no player that a host can bring about, by whatever calls, has a tween of the
opacity of an object and a fade-out of it in progress. -/
theorem shown_stays (p : Player) (scenes : Block) (index : Nat) :
    (∀ (ns : List Node) (q : Player), Plays (p.opened scenes index) ns q → ¬q.Struck →
      ∀ (before after : List Node) (n : Node) (id : String),
        p.prelude scenes index ++ ns = before ++ n :: after → n.Shows id →
          (∀ m ∈ after, ¬m.Hides id) → q.session.stage.objects.contains id) ∧
      ∀ r, Reachable r → ∀ id, ∀ s ∈ r.session.animator.slots, ∀ t ∈ r.session.animator.slots,
        Animator.isTween id .alpha s.task → t.task ≠ .fadeOut id := by
  refine ⟨fun ns q plays open' before after n id split shows stays => ?_,
    fun r reachable => reachable.steady.exclusive⟩
  have held : q.scenery.Holds id := by
    have begins := p.opened_staging scenes index
    have goesOn := plays.staging
    have since {before : List Node} (split : ns = before ++ n :: after) : q.scenery.Holds id :=
      goesOn.since (P := (·.Holds id)) split (fun _ _ => .of_shows shows)
        (fun m later _ _ h => h.staged (stays m later)) fun _ _ h => h.drift open'
    rcases List.append_eq_append_iff.mp split with ⟨rest, -, later⟩ | ⟨rest, earlier, later⟩
    · exact since later
    · cases rest with
      | nil => exact since (show ns = [] ++ n :: after from later.symm)
      | cons m rest =>
        -- The object was shown before the loop began.
        obtain ⟨rfl, rfl⟩ := List.cons.inj later
        have begun : (p.opened scenes index).scenery.Holds id :=
          begins.since (P := (·.Holds id)) earlier (fun _ _ => .of_shows shows)
            (fun m hm _ _ h => h.staged (stays m (List.mem_append_left _ hm)))
            fun _ _ h => h.drift not_false
        exact goesOn.keeps (P := (·.Holds id)) begun
          (fun m hm _ _ h => h.staged (stays m (List.mem_append_right _ hm)))
          fun _ _ h => h.drift open'
  exact held.present

/-- A picture that begins to fade out and is shown again, fading in. -/
def encore : Block :=
  [.directive "@image_in" ["logo"], .directive "@image_out" ["logo", "160"],
    .directive "@image_in" ["logo", "0", "0", "", "160"], .dialogue "" "back"]

/-- Long after the time of the fade-out the picture is still there, and all the while it
only faded in. -/
theorem shown_stays_encore :
    let p := new ⟨.any, {}, {}⟩ .accepting
    let begun := p.start encore 0
    let later := tick^[20] begun
    (begun.session.animator.slots.any (Animator.isTween "logo" .alpha ·.task)) = true ∧
      (∀ s ∈ begun.session.animator.slots, s.task ≠ .fadeOut "logo") ∧
      later.session.animator.slots = [] ∧ later.session.stage.objects.contains "logo" := by
  intro p begun later
  let ns := (p.opened encore 0).presentedInRun
  obtain ⟨still, waits⟩ := plays_ticks 20 begun (by decide +kernel)
  have plays : Plays (p.opened encore 0) (ns ++ []) later := (plays_run rfl).trans still
  have three : 2 < ns.length := by decide +kernel
  have shows : ns[2].Shows "logo" := by
    show (ns.get ⟨2, by decide +kernel⟩).Shows "logo"
    decide +kernel
  have split : p.prelude encore 0 ++ (ns ++ []) = ns.take 2 ++ ns[2] :: ns.drop 3 := by
    rw [prelude_zero, List.nil_append, List.append_nil, List.getElem_cons_drop,
      List.take_append_drop]
  have fades : begun.session.animator.slots.any (Animator.isTween "logo" .alpha ·.task) := by
    decide +kernel
  obtain ⟨s, hs, fadesIn⟩ := List.any_eq_true.mp fades
  obtain ⟨stays, exclusive⟩ := shown_stays p encore 0
  exact ⟨fades, fun t ht => exclusive begun (.start encore 0 (.new _ _)) "logo" s hs t ht fadesIn,
    by decide +kernel,
    stays _ later plays (not_struck_of_isWaiting waits) _ _ ns[2] "logo" split shows
      (by decide +kernel)⟩

end Player

end VisualNovel
