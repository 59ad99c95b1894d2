import VisualNovel.Proofs.Player.Events
import VisualNovel.Proofs.Player.Presence
import VisualNovel.Proofs.Stage.Passing

/-!
# Effects and their tasks

A shake or a flash is taken off by its task. If the task is dropped on the way, nothing is left
that would take the effect off. Tasks are dropped when an object is shown or hidden, when a task
takes another's place, and when a session begins or ends; each of these has to see to the effect
as well. All do, save one: a session that is disposed of loses its tasks, and keeps the shake of
the screen and the flash.

> `Session.Attends.event`, `Session.Shaken.event`: what happens to a session leaves no effect
> without its task, and no task without its effect.

> `Player.effects_pass`: at any moment an effect is on only while its task is in progress, except
> after the session was disposed of.
-/

namespace VisualNovel

open Change Relation

/-- Of the tasks that are left once those of an object are dropped, none ends its shaking. -/
theorem Animator.not_isObjectShake_of_cancelTarget {a : Animator} {name : String} {s : Slot}
    (hs : s ∈ (a.cancelTarget name).slots) : ¬isObjectShake name s.task = true := by
  intro shakes
  have other := (List.mem_filter.mp hs).2
  obtain ⟨id, task, step, steps, easing⟩ := s
  cases task with
  | objectShake target remaining =>
    have same : target = name := by simpa [isObjectShake] using shakes
    simp [Task.target?, same] at other
  | _ => cases shakes

namespace Session

variable {setup : Setup} {instant : Bool} {s t : Session} {e : Passing}

/-! ## No effect without its task -/

/-- The effect is on only while a task is in progress that will take it off. -/
def Attends (s : Session) (e : Passing) : Prop :=
  e.On s.stage → ∃ u ∈ s.animator.slots, e.liftedBy u.task = true

namespace Attends

/-- What neither puts the effect on nor drops a task that takes it off. -/
theorem of_kept (h : s.Attends e) (on : e.On t.stage → e.On s.stage)
    (kept : ∀ u ∈ s.animator.slots, e.liftedBy u.task = true → u ∈ t.animator.slots) :
    t.Attends e := by
  intro now
  obtain ⟨u, hu, lifts⟩ := h (on now)
  exact ⟨u, kept u hu lifts, lifts⟩

/-- What leaves the stage as far as effects go, and the tasks. -/
theorem of_same (h : s.Attends e) (objects : t.stage.objects = s.stage.objects)
    (overlay : t.stage.overlay = s.stage.overlay)
    (shake : t.stage.screenShake = s.stage.screenShake) (animator : t.animator = s.animator) :
    t.Attends e :=
  h.of_kept (fun on => on.congr objects overlay shake) fun _ hu _ => animator ▸ hu

/-- A task may be started, with its effect if it is to take one off: the tasks whose place it
takes would have taken off the same. -/
theorem start (h : s.Attends e) {stage : Stage} (task : Task) (steps : Nat) (easing : Easing)
    (on : e.On stage → e.On s.stage ∨ e.liftedBy task = true) :
    Attends { s with
      stage := stage
      animator := ((s.animator.drop task.contends).push task steps easing).1 } e := by
  intro now
  have new : e.liftedBy task = true →
      ∃ u ∈ ((s.animator.drop task.contends).push task steps easing).1.slots,
        e.liftedBy u.task = true :=
    fun lifts => ⟨_, List.mem_append_right _ (List.mem_singleton_self _), lifts⟩
  rcases on now with before | lifts
  · obtain ⟨u, hu, lifts⟩ := h before
    by_cases dropped : task.contends u.task = true
    · exact new (Passing.liftedBy_of_contends lifts dropped)
    · refine ⟨u, List.mem_append_left _ (List.mem_filter.mpr ⟨hu, ?_⟩), lifts⟩
      simpa using dropped
  · exact new lifts

/-- The tasks of an object may be dropped, if it does not shake any more. -/
theorem cancelTarget (h : s.Attends e) {stage : Stage} {name : String}
    (on : e.On stage → e.On s.stage) (off : ¬(Passing.objectShake name).On stage) :
    Attends { s with stage := stage, animator := s.animator.cancelTarget name } e := by
  intro now
  obtain ⟨u, hu, lifts⟩ := h (on now)
  refine ⟨u, List.mem_filter.mpr ⟨hu, ?_⟩, lifts⟩
  have other : u.task.target? ≠ some name := by
    intro target
    obtain rfl := Passing.target?_of_liftedBy lifts target
    exact off now
  simpa using other

/-- What a node does leaves no effect behind. -/
theorem act (h : s.Attends e) (act : Act setup instant s t) : t.Attends e := by
  cases act with
  | text | record | offer | notice | background | music | sound | silence | assign =>
    exact h.of_same rfl rfl rfl rfl
  | start _ task => exact h.start task _ _ .inl
  | put o calm =>
    -- The new object does not shake, so cancelling the tasks of its name loses no shake.
    have off : ¬(Passing.objectShake o.name).On (s.stage.insertObject o) := by
      rintro ⟨o', found, shakes⟩
      rw [Stage.insertObject, Table.find?_insert, if_pos rfl] at found
      cases found
      rw [calm] at shakes
      contradiction
    refine h.cancelTarget (fun on => ?_) off
    cases e with
    | objectShake name =>
      by_cases same : name = o.name
      · subst same
        exact absurd on off
      · obtain ⟨o', found, shakes⟩ := on
        rw [Stage.insertObject, Table.find?_insert, if_neg same] at found
        exact ⟨o', found, shakes⟩
    | _ => exact on
  | take name =>
    refine h.cancelTarget Passing.on_of_remove ?_
    rintro ⟨o, found, -⟩
    rw [removeObject_eq, Table.find?_erase, if_pos rfl] at found
    contradiction
  | set name v =>
    refine h.of_kept (Passing.on_of_modify fun o shakes => ?_) fun _ hu _ => hu
    cases v <;> exact shakes
  | shakeObject _ name amount ms =>
    -- The effect is put on together with the task that takes it off.
    refine h.start (.objectShake name ms) 1 .linear fun on => ?_
    cases e with
    | objectShake other =>
      by_cases same : other = name
      · exact .inr (by simp [Passing.liftedBy, Animator.isObjectShake, same])
      · obtain ⟨o, found, shakes⟩ := on
        rw [Stage.modifyObject, Table.find?_modify, if_neg same] at found
        exact .inl ⟨o, found, shakes⟩
    | _ => exact .inl on
  | shakeScreen _ amount ms =>
    refine h.start (.screenShake ms) 1 .linear fun on => ?_
    cases e with
    | screenShake => exact .inr rfl
    | _ => exact .inl on
  | flash _ color steps easing =>
    refine h.start (.flash color) steps easing fun on => ?_
    cases e with
    | flash => exact .inr rfl
    | _ => exact .inl on
  | unflash =>
    refine h.of_kept (fun on => ?_) fun _ hu _ => hu
    cases e with
    | flash => exact absurd rfl on
    | _ => exact on

/-- Neither does what happens to a session while its story plays. -/
theorem event (h : s.Attends e) (event : Event setup s t) : t.Attends e := by
  cases event with
  | act act => exact h.act act
  | tick p =>
    obtain ⟨session, hp, hstage, hanimator⟩ := p.animate_eq
    rw [hp]
    intro on
    rw [hstage, Animator.tick_stage] at on
    rw [hanimator, Animator.tick_slots]
    exact Passing.on_tick h on
  | cancel tags own =>
    refine h.of_kept id fun u hu lifts => List.mem_filter.mpr ⟨hu, ?_⟩
    obtain ⟨notReveal, notFade⟩ := Passing.part_ne_of_liftedBy lifts
    rw [bne_iff_ne]
    intro same
    rcases own with rfl | rfl
    · exact notReveal (tags.part u hu same)
    · exact notFade (tags.part u hu same)
  | cover | taken => exact h.of_same rfl rfl rfl rfl
  | clear =>
    refine h.of_kept (fun on => ?_) fun _ hu _ => hu
    cases e with
    | objectShake name =>
      obtain ⟨o, found, -⟩ := on
      cases found
    | _ => exact on

theorem events (h : s.Attends e) (events : Events setup s t) : t.Attends e := by
  induction events with
  | refl => exact h
  | tail _ event ih => exact ih.event event

end Attends

/-! ## No task without its effect -/

/-- Every task that ends the shaking of an object is alone for this object, and as long as the
object is on stage it shakes. -/
structure Shaken (s : Session) : Prop where
  shaking : ∀ name, ∀ u ∈ s.animator.slots, Animator.isObjectShake name u.task = true →
    ∀ o, s.stage.objects.find? name = some o → o.shaking = true
  alone : ∀ name, ∀ u ∈ s.animator.slots, ∀ v ∈ s.animator.slots,
    Animator.isObjectShake name u.task = true → Animator.isObjectShake name v.task = true → u = v

namespace Shaken

/-- Without tasks there is nothing to say. -/
theorem of_nil (h : s.animator.slots = []) : s.Shaken where
  shaking := fun _ _ hu => absurd (h ▸ hu) List.not_mem_nil
  alone := fun _ _ hu => absurd (h ▸ hu) List.not_mem_nil

/-- What drops tasks, and leaves the objects of those that stay shaking. -/
theorem of_sublist (h : s.Shaken) (slots : t.animator.slots.Sublist s.animator.slots)
    (keeps : ∀ name, ∀ u ∈ t.animator.slots, Animator.isObjectShake name u.task = true →
      ∀ o, t.stage.objects.find? name = some o →
        ∃ o', s.stage.objects.find? name = some o' ∧ (o'.shaking = true → o.shaking = true)) :
    t.Shaken where
  shaking := by
    intro name u hu shakes o found
    obtain ⟨before, here, kept⟩ := keeps name u hu shakes o found
    exact kept (h.shaking name u (slots.mem hu) shakes before here)
  alone := fun name u hu v hv => h.alone name u (slots.mem hu) v (slots.mem hv)

/-- What leaves the objects and the tasks. -/
theorem of_same (h : s.Shaken) (objects : t.stage.objects = s.stage.objects)
    (animator : t.animator = s.animator) : t.Shaken :=
  h.of_sublist (animator ▸ .refl _) fun _ _ _ _ o found => ⟨o, objects ▸ found, id⟩

/-- A task of another kind may be started. -/
theorem start (h : s.Shaken) {stage : Stage} (task : Task)
    (calm : ∀ name, Animator.isObjectShake name task = false)
    (objects : stage.objects = s.stage.objects) (steps : Nat) (easing : Easing) :
    Shaken { s with
      stage := stage
      animator := ((s.animator.drop task.contends).push task steps easing).1 } where
  shaking := by
    intro name
    refine Animator.forall_start (fun u hu _ shakes o found => ?_) fun shakes => ?_
    · exact h.shaking name u hu shakes o (objects ▸ found)
    · rw [calm name] at shakes
      contradiction
  alone := by
    intro name
    refine Animator.forall_start (fun u hu _ => ?_) (fun v _ shakes => ?_)
    · refine Animator.forall_start (fun v hv _ => h.alone name u hu v hv) fun _ shakes => ?_
      rw [calm name] at shakes
      contradiction
    · rw [calm name] at shakes
      contradiction

/-- An object may begin to shake, with the task that ends it in the place of any other. -/
theorem shakeObject (h : s.Shaken) (name : String) (amount : Single) (ms : Nat) :
    Shaken { s with
      stage := s.stage.modifyObject name fun o =>
        { o with shaking := true, shakeAmount := amount }
      animator := (s.animator.shakeObject name ms).1 } where
  shaking := by
    intro other
    refine Animator.forall_start (fun u hu kept shakes o found => ?_) fun shakes o found => ?_
    · have apart : other ≠ name := by
        rintro rfl
        rw [kept] at shakes
        contradiction
      rw [Stage.modifyObject, Table.find?_modify, if_neg apart] at found
      exact h.shaking other u hu shakes o found
    · obtain rfl : name = other := by simpa [Animator.isObjectShake] using shakes
      rw [Stage.modifyObject, Table.find?_modify, if_pos rfl] at found
      obtain ⟨before, -, rfl⟩ := Option.map_eq_some_iff.mp found
      rfl
  alone := by
    intro other
    -- Whatever shook this object before was dropped.
    have dropped {u : Slot} (kept : Animator.isObjectShake name u.task = false)
        (old : Animator.isObjectShake other u.task = true) :
        Animator.isObjectShake other (.objectShake name ms) ≠ true := by
      intro new
      obtain rfl : name = other := by simpa [Animator.isObjectShake] using new
      rw [kept] at old
      contradiction
    refine Animator.forall_start (fun u hu kept => ?_) ?_
    · exact Animator.forall_start (fun v hv _ => h.alone other u hu v hv)
        fun old new => absurd new (dropped kept old)
    · exact Animator.forall_start (fun v _ kept new old => absurd new (dropped kept old))
        fun _ _ => rfl

/-- What a node does leaves no task without its effect. -/
theorem act (h : s.Shaken) (act : Act setup instant s t) : t.Shaken := by
  cases act with
  | text | record | offer | notice | background | unflash | music | sound | silence | assign =>
    exact h.of_same rfl rfl
  | start _ task calm =>
    -- A task that lifts nothing is no shake of an object.
    refine h.start task (fun name => ?_) rfl _ _
    cases task with
    | objectShake => cases calm
    | _ => rfl
  | put o =>
    -- The shakes of the replaced object are cancelled; all others are of objects that stay.
    refine h.of_sublist List.filter_sublist fun name u hu shakes o' found => ⟨o', ?_, id⟩
    have apart : name ≠ o.name := by
      rintro rfl
      exact absurd shakes (Animator.not_isObjectShake_of_cancelTarget hu)
    rwa [Stage.insertObject, Table.find?_insert, if_neg apart] at found
  | take name =>
    refine h.of_sublist List.filter_sublist fun other u _ _ o found => ⟨o, ?_, id⟩
    rw [removeObject_eq, Table.find?_erase] at found
    split at found
    next => contradiction
    next => exact found
  | set name v =>
    refine h.of_sublist (.refl _) fun other u _ _ o found => ?_
    rw [Stage.modifyObject, Table.find?_modify] at found
    split at found
    next =>
      obtain ⟨before, here, rfl⟩ := Option.map_eq_some_iff.mp found
      exact ⟨before, here, fun shakes => by cases v <;> exact shakes⟩
    next => exact ⟨o, found, id⟩
  | shakeObject _ name amount ms => exact h.shakeObject name amount ms
  | shakeScreen _ amount ms => exact h.start (.screenShake ms) (fun _ => rfl) (by rfl) 1 .linear
  | flash _ color steps easing => exact h.start (.flash color) (fun _ => rfl) (by rfl) steps easing

/-- A shake of an object that goes on writes nothing. -/
theorem changes_of_next {name : String} {dt : Nat} {u v : Slot}
    (shakes : Animator.isObjectShake name u.task = true) (next : u.next dt = some v) :
    u.changes dt = [] := by
  cases Slot.goes_of_next next with
  | objectShake left => exact if_pos left
  | _ => cases shakes

/-- After a tick an object shakes whose task goes on: the other tasks let it shake, and this one
has not come to its end. -/
theorem tick (h : s.Shaken) (dt : Nat) {session : Session}
    (stage : session.stage = (s.animator.tick dt s.stage).2.1)
    (animator : session.animator = (s.animator.tick dt s.stage).1) : session.Shaken where
  shaking := by
    intro name v hv shakes
    rw [animator, Animator.tick_slots] at hv
    obtain ⟨u, hu, next⟩ := List.mem_filterMap.mp hv
    have before : Animator.isObjectShake name u.task = true :=
      (Passing.liftedBy_next (e := .objectShake name) next).symm.trans shakes
    rw [stage, Animator.tick_stage, applyAll_toObjects]
    refine find?_toObjects (h.shaking name u hu before) fun f hf o shaking => ?_
    obtain ⟨w, hw, hf⟩ := List.mem_flatMap.mp hf
    rcases Slot.object_mem_changes hf with ⟨f, x, -, rfl⟩ | ⟨x, -, rfl⟩ | ⟨left, task, rfl⟩
    · cases f <;> exact shaking
    · exact shaking
    · obtain rfl := h.alone name u hu w hw before (by simp [task, Animator.isObjectShake])
      rw [changes_of_next before next] at hf
      exact absurd hf List.not_mem_nil
  alone := by
    intro name v hv v' hv' shakes shakes'
    rw [animator, Animator.tick_slots] at hv hv'
    obtain ⟨u, hu, next⟩ := List.mem_filterMap.mp hv
    obtain ⟨u', hu', next'⟩ := List.mem_filterMap.mp hv'
    have same : u = u' := h.alone name u hu u' hu'
      ((Passing.liftedBy_next (e := .objectShake name) next).symm.trans shakes)
      ((Passing.liftedBy_next (e := .objectShake name) next').symm.trans shakes')
    subst same
    exact Option.some.inj (next.symm.trans next')

/-- What happens to a session while its story plays leaves no task without its effect. -/
theorem event (h : s.Shaken) (event : Event setup s t) : t.Shaken := by
  cases event with
  | act act => exact h.act act
  | tick p =>
    obtain ⟨session, hp, hstage, hanimator⟩ := p.animate_eq
    rw [hp]
    exact h.tick _ hstage hanimator
  | cancel =>
    exact h.of_sublist List.filter_sublist fun _ _ _ _ o found => ⟨o, found, id⟩
  | cover | taken => exact h.of_same rfl rfl
  | clear => exact h.of_sublist (.refl _) fun _ _ _ _ _ found => nomatch found

theorem events (h : s.Shaken) (events : Events setup s t) : t.Shaken := by
  induction events with
  | refl => exact h
  | tail _ event ih => exact ih.event event

end Shaken

/-- On a stage without objects and effects there is none to attend to. -/
theorem attends_of_calm (objects : ∀ name o, s.stage.objects.find? name = some o →
      o.shaking = false)
    (overlay : s.stage.overlay = .transparent) (shake : s.stage.screenShake = 0) :
    s.Attends e := by
  intro on
  cases e with
  | objectShake name =>
    obtain ⟨o, found, shakes⟩ := on
    rw [objects name o found] at shakes
    contradiction
  | screenShake => exact absurd shake on
  | flash => exact absurd overlay on

end Session

namespace Player

open Session (Attends Shaken)

variable {p q r : Player} {ns : List Node}

/-! ## Where sessions begin -/

/-- Of every effect on its stage the player has a task that will take it off, and of every task
that will take the shaking of an object off, the object shakes. -/
structure Tended (p : Player) : Prop where
  attends : ∀ e, p.session.Attends e
  shaken : p.session.Shaken

theorem Tended.events {setup : Setup} (h : p.Tended)
    (events : Session.Events setup p.session q.session) : q.Tended where
  attends := fun e => (h.attends e).events events
  shaken := h.shaken.events events

theorem Plays.tended (h : Plays p ns q) (tagged : p.Tagged) (before : p.Tended) : q.Tended :=
  before.events (h.events tagged)

/-- With no task in progress and no effect on there is nothing to tend to. -/
theorem tended_of_calm (slots : p.session.animator.slots = [])
    (objects : ∀ name o, p.session.stage.objects.find? name = some o → o.shaking = false)
    (overlay : p.session.stage.overlay = .transparent)
    (shake : p.session.stage.screenShake = 0) : p.Tended where
  attends := fun _ => Session.attends_of_calm objects overlay shake
  shaken := .of_nil slots

theorem tended_of_empty (slots : p.session.animator.slots = [])
    (stage : p.session.stage = .empty) : p.Tended := by
  refine tended_of_calm slots (fun name o found => ?_) (by rw [stage]; rfl) (by rw [stage]; rfl)
  rw [stage] at found
  cases (Table.find?_empty name).symm.trans found

/-- Sessions begin tended. -/
theorem Begun.tended (h : Begun p) : p.Tended := by
  cases h with
  | opened p scenes index =>
    have fresh : p.fresh.Tended := by
      obtain ⟨audio, loaded, hp⟩ := p.fresh_eq
      rw [hp]
      exact tended_of_empty rfl rfl
    exact fresh.events (p.opened_events scenes index)
  | @takenUp p q s taken =>
    obtain ⟨⟨history, stage⟩, slots, -⟩ := takenUp_session taken
    refine tended_of_calm slots ?_ (by rw [stage]; rfl) (by rw [stage]; rfl)
    -- A saved stage settles as it is taken up.
    intro name o found
    rw [stage] at found
    dsimp only [Stage.settle] at found
    rw [Table.find?_mapValues] at found
    obtain ⟨before, -, rfl⟩ := Option.map_eq_some_iff.mp found
    rfl

/-! ## After the end -/

/-- A session that is over: nothing is in progress or on stage any more, save for the effects of
the screen that were on when it was disposed of. -/
structure Gone (q p : Player) : Prop where
  terminated : p.state = .terminated
  slots : p.session.animator.slots = []
  objects : p.session.stage.objects = .empty
  overlay : p.session.stage.overlay = q.session.stage.overlay
  screenShake : p.session.stage.screenShake = q.session.stage.screenShake

theorem gone_dispose (q : Player) : Gone q q.dispose := by
  obtain ⟨audio, loaded, released⟩ :=
    ((q.withAnimator q.session.animator.cancelAll).call .stop).releasePool_eq
  unfold dispose
  rw [released]
  exact ⟨rfl, rfl, rfl, rfl, rfl⟩

theorem Gone.shaken (h : Gone q p) : p.session.Shaken := .of_nil h.slots

/-- A tick finds nothing to do. -/
theorem Gone.tick (h : Gone q p) : Gone q p.tick := by
  have counted : p.countDown = p :=
    p.countDown_eq fun ms delaying => by rw [h.terminated] at delaying; contradiction
  have resumed : p.resume = p := by
    unfold resume
    rw [if_neg (by rw [h.terminated]; nofun)]
  obtain ⟨session, hp, hstage, hanimator⟩ := p.animate_eq
  have ticked : p.tick = { p with session := session } := by
    unfold Player.tick
    dsimp only
    rw [counted, resumed, hp]
    exact if_neg (by rw [h.terminated]; nofun)
  rw [Animator.tick_stage, h.slots] at hstage
  rw [ticked]
  refine ⟨h.terminated, ?_, ?_, ?_, ?_⟩
  · rw [hanimator, Animator.tick_slots, h.slots]
    rfl
  · rw [hstage]
    exact h.objects
  · rw [hstage]
    exact h.overlay
  · rw [hstage]
    exact h.screenShake

/-- Whatever is asked of it, a session that is over stays as it is. -/
theorem Gone.entry (h : Gone q p) (entry : Entry p r) : Gone q r := by
  cases entry with
  | tick => exact h.tick
  | advance =>
    unfold Player.advance
    rw [if_neg (by rw [h.terminated]; nofun)]
    exact h
  | choose target =>
    unfold Player.choose
    rw [if_neg (by rw [h.terminated]; nofun)]
    exact h
  | chooseOption index =>
    unfold Player.chooseOption
    rw [if_neg (by rw [h.terminated]; nofun)]
    exact h
  | dispose =>
    have again := p.gone_dispose
    exact ⟨again.terminated, again.slots, again.objects, again.overlay.trans h.overlay,
      again.screenShake.trans h.screenShake⟩

theorem gone_of_entries (h : ReflTransGen Entry q.dispose p) : Gone q p := by
  induction h with
  | refl => exact q.gone_dispose
  | tail _ entry ih => exact ih.entry entry

/-! ## At any moment -/

/-- A player that a host can come to is tended, or was tended when it was disposed of. -/
theorem Reachable.tended (h : Reachable p) :
    p.Tended ∨ ∃ q, Reachable q ∧ q.Tended ∧ ReflTransGen Entry q.dispose p := by
  induction h with
  | new setup audio => exact .inl (tended_of_empty rfl rfl)
  | @start p scenes index _ _ =>
    have begun : Begun (p.opened scenes index) := .opened p scenes index
    exact .inl ((plays_run (p := p.opened scenes index) rfl).tended begun.tagged begun.tended)
  | @tick p before ih =>
    obtain ⟨ns, plays⟩ := p.plays_tick
    exact ih.imp (plays.tended before.steady.tagged)
      fun ⟨q, reachable, tended, entries⟩ => ⟨q, reachable, tended, entries.tail .tick⟩
  | @advance p before ih =>
    obtain ⟨ns, plays⟩ := p.plays_advance
    exact ih.imp (plays.tended before.steady.tagged)
      fun ⟨q, reachable, tended, entries⟩ => ⟨q, reachable, tended, entries.tail .advance⟩
  | @choose p target before ih =>
    obtain ⟨ns, plays⟩ := p.plays_choose target
    exact ih.imp (plays.tended before.steady.tagged)
      fun ⟨q, reachable, tended, entries⟩ => ⟨q, reachable, tended, entries.tail (.choose target)⟩
  | @chooseOption p index before ih =>
    obtain ⟨ns, plays⟩ := p.plays_chooseOption index
    exact ih.imp (plays.tended before.steady.tagged) fun ⟨q, reachable, tended, entries⟩ =>
      ⟨q, reachable, tended, entries.tail (.chooseOption index)⟩
  | @dispose p before ih =>
    -- Disposing lifts nothing: what was tended before is all there is to say.
    refine .inr ?_
    rcases ih with tended | ⟨q, reachable, tended, entries⟩
    · exact ⟨p, before, tended, .refl⟩
    · exact ⟨q, reachable, tended, entries.tail .dispose⟩
  | restore _ _ _ hr _ _ =>
    obtain ⟨q, taken, ⟨running, rfl⟩ | rfl⟩ := restore_cases hr
    · have begun : Begun q := .takenUp taken
      exact .inl ((plays_run running).tended begun.tagged begun.tended)
    · exact .inl (Begun.takenUp taken).tended

/-- A session that is over is calm, as far as objects go. -/
theorem Reachable.attends_objectShake (h : Reachable p) (name : String) :
    p.session.Attends (.objectShake name) ∧ p.session.Shaken := by
  rcases h.tended with tended | ⟨q, -, -, entries⟩
  · exact ⟨tended.attends _, tended.shaken⟩
  · have gone := gone_of_entries entries
    refine ⟨?_, gone.shaken⟩
    rintro ⟨o, found, -⟩
    rw [gone.objects] at found
    contradiction

/-- At every moment that a host can bring about, an object on stage shakes exactly as long as a
task is in progress that will end its shaking. The screen shakes, or shows a colour of a flash,
only while the task that will end this is in progress, or after a session in which it was in
progress was disposed of: then no task is left, and shake and colour stay what they were until a
script is started or a session restored. -/
theorem effects_pass (h : Reachable p) :
    (∀ name o, p.session.stage.objects.find? name = some o →
      (o.shaking = true ↔
        ∃ s ∈ p.session.animator.slots, Animator.isObjectShake name s.task = true)) ∧
    ((p.session.stage.screenShake ≠ 0 →
        ∃ s ∈ p.session.animator.slots, Animator.isScreenShake s.task = true) ∧
      (p.session.stage.overlay ≠ .transparent →
        ∃ s ∈ p.session.animator.slots, Animator.isFlash s.task = true) ∨
      ∃ q, Reachable q ∧
        (q.session.stage.screenShake ≠ 0 →
          ∃ s ∈ q.session.animator.slots, Animator.isScreenShake s.task = true) ∧
        (q.session.stage.overlay ≠ .transparent →
          ∃ s ∈ q.session.animator.slots, Animator.isFlash s.task = true) ∧
        ReflTransGen Entry q.dispose p ∧ p.session.animator.slots = [] ∧
        p.session.stage.screenShake = q.session.stage.screenShake ∧
        p.session.stage.overlay = q.session.stage.overlay) := by
  refine ⟨fun name o found => ?_, ?_⟩
  · obtain ⟨attends, shaken⟩ := h.attends_objectShake name
    constructor
    · intro shakes
      exact attends ⟨o, found, shakes⟩
    · rintro ⟨s, hs, shakes⟩
      exact shaken.shaking name s hs shakes o found
  · refine h.tended.imp (fun tended => ?_) ?_
    · exact ⟨tended.attends .screenShake, tended.attends .flash⟩
    · rintro ⟨q, reachable, tended, entries⟩
      have gone := gone_of_entries entries
      exact ⟨q, reachable, tended.attends .screenShake, tended.attends .flash, entries, gone.slots,
        gone.screenShake, gone.overlay⟩

/-- A picture that shakes while the screen shakes and flashes red. -/
def tremor : Block :=
  [.directive "@image_in" ["lamp"], .directive "@shake_obj" ["lamp", "5", "1000"],
    .directive "@shake" ["5", "1000"], .directive "@flash" ["#ff0000", "1000"],
    .dialogue "" "here"]

/-- While the line waits, all three effects are on, and each has its task. -/
theorem effects_pass_tremor :
    let p := (new ⟨.any, {}, {}⟩ .accepting).start tremor 0
    p.Reachable ∧ p.session.stage.screenShake ≠ 0 ∧
      (∃ o, p.session.stage.objects.find? "lamp" = some o ∧ o.shaking = true) ∧
      (∃ s ∈ p.session.animator.slots, Animator.isObjectShake "lamp" s.task = true) ∧
      ∃ s ∈ p.session.animator.slots, Animator.isScreenShake s.task = true := by
  intro p
  have reachable : p.Reachable := (Reachable.new _ _).start tremor 0
  have shakes : p.session.stage.screenShake ≠ 0 := by decide +kernel
  have lamp : ∃ o, p.session.stage.objects.find? "lamp" = some o ∧ o.shaking = true := by
    have here : (p.session.stage.objects.find? "lamp").any (·.shaking) = true := by decide +kernel
    simpa [Option.any_eq_true] using here
  obtain ⟨objects, screen⟩ := effects_pass reachable
  obtain ⟨o, found, shaking⟩ := lamp
  refine ⟨reachable, shakes, ⟨o, found, shaking⟩, (objects "lamp" o found).mp shaking, ?_⟩
  rcases screen with ⟨shake, -⟩ | ⟨q, -, -, -, -, nothing, -⟩
  · exact shake shakes
  · have going : p.session.animator.slots ≠ [] := by decide +kernel
    exact absurd nothing going

/-- Disposed of at that moment, the session has no task left, and the screen goes on shaking and
is still red. -/
theorem disposed_unsettled :
    let p := ((new ⟨.any, {}, {}⟩ .accepting).start tremor 0).dispose
    p.Reachable ∧ p.session.animator.slots = [] ∧ p.session.stage.screenShake ≠ 0 ∧
      p.session.stage.overlay ≠ .transparent := by
  intro p
  exact ⟨((Reachable.new _ _).start tremor 0).dispose, by decide +kernel, by decide +kernel,
    by decide +kernel⟩

end Player

end VisualNovel
