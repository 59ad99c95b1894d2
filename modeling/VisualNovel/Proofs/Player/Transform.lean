import VisualNovel.Proofs.Player.Presence

/-!
# Values that nodes set

A node without a duration writes its value at once and leaves the tasks alone. So the
value lasts, except for one thing: a tween of the same property that was in progress goes
on, and from its next step on the property has the values of the tween. A node with a
duration starts a tween, which takes the place of the one in progress.

> `Scenery.Wears.staged`, `Scenery.Wears.drift`: the values that a property can come to
> have are those it has and those of the tweens in progress.

> `Player.written_lasts`: what becomes of a value that was set at once.

> `Player.written_overwritten`: a tween in progress does write it over.
-/

namespace VisualNovel

open Change

/-! ## The values a property can come to have -/

/-- A property of an object has one of these values, and has one of them after every step
of its tweens in progress. -/
structure Scenery.Wears (c : Scenery) (id : String) (channel : Channel)
    (values : Property → Prop) : Prop where
  now : ∀ o, c.objects.find? id = some o → values (o.property channel)
  tweens : ∀ s ∈ c.animator.slots, ∀ f, s.task = .tween id f → f.channel = channel →
    ∀ x, values (f.value x)

namespace Scenery.Wears

variable {setup : Setup} {instant : Bool} {n : Node} {c d : Scenery} {id : String}
  {channel : Channel} {values : Property → Prop}

/-- Changing an object in a way that leaves the property alone. -/
theorem modify (h : ∀ o, c.objects.find? id = some o → values (o.property channel))
    {name : String} {f : StageObject → StageObject}
    (keeps : name = id → ∀ o, (f o).property channel = o.property channel) :
    ∀ o, (c.objects.modify name f).find? id = some o → values (o.property channel) := by
  intro o ho
  rw [Table.find?_modify] at ho
  split at ho
  next same =>
    obtain ⟨before, found, rfl⟩ := Option.map_eq_some_iff.mp ho
    rw [keeps same.symm]
    exact h before found
  next => exact h o ho

/-- Starting a task that is no tween of the property. -/
theorem start (h : ∀ s ∈ c.animator.slots, ∀ f, s.task = .tween id f → f.channel = channel →
      ∀ x, values (f.value x))
    {test : Task → Bool} {task : Task} {steps : Nat} {easing : Easing}
    (other : ∀ f, task = .tween id f → f.channel ≠ channel) :
    ∀ s ∈ ((c.animator.drop test).push task steps easing).1.slots, ∀ f, s.task = .tween id f →
      f.channel = channel → ∀ x, values (f.value x) :=
  Animator.forall_start (fun s hs _ => h s hs) fun f same here => absurd here (other f same)

/-- A node keeps the values unless it sets the property or shows the object anew. -/
theorem staged (h : c.Wears id channel values) (notAlpha : channel ≠ .alpha)
    (sets : ∀ v, n.Sets id v → v.channel ≠ channel) (shows : ¬n.Shows id)
    (staged : Staged setup instant n c d) : d.Wears id channel values := by
  cases staged with
  | same => exact h
  | @shown name shows' =>
    have other : id ≠ name := fun same => shows (same ▸ shows')
    refine ⟨fun o ho => ?_, fun s hs => h.tweens s (List.mem_filter.mp hs).1⟩
    rw [Table.find?_insert, if_neg other] at ho
    exact h.now o ho
  | @fadeIn name shows' =>
    have other : id ≠ name := fun same => shows (same ▸ shows')
    refine ⟨fun o ho => ?_, ?_⟩
    · rw [Table.find?_insert, if_neg other] at ho
      exact h.now o ho
    · refine Animator.forall_start (fun s hs _ => h.tweens s (List.mem_filter.mp hs).1) ?_
      intro f same here
      cases same
      exact absurd here.symm notAlpha
  | @hidden name =>
    refine ⟨fun o ho => ?_, fun s hs => h.tweens s (List.mem_filter.mp hs).1⟩
    rw [Table.find?_erase] at ho
    split at ho
    next => contradiction
    next => exact h.now o ho
  -- A fade-out is no tween, and its writes go to the opacity.
  | fadeOut => exact ⟨h.now, start h.tweens nofun⟩
  | @write name v sets' =>
    refine ⟨modify h.now fun same o => ?_, h.tweens⟩
    exact o.property_set_of_ne (sets v (same ▸ sets'))
  -- A tween of another channel never writes to this one.
  | @tween name v sets' _ f same =>
    refine ⟨h.now, start h.tweens fun g is => ?_⟩
    cases is
    rw [same]
    exact sets v sets'
  | background => exact ⟨h.now, h.tweens⟩
  | crossfade => exact ⟨h.now, start h.tweens nofun⟩
  | shake =>
    refine ⟨modify h.now fun _ o => ?_, start h.tweens nofun⟩
    cases channel <;> rfl
  | screen _ task objects =>
    refine ⟨h.now, start h.tweens fun f is => ?_⟩
    exact absurd (is ▸ rfl) objects

/-- Without a node a property gets the values of its tweens only. -/
theorem drift {dt : Nat} {cleared : Prop} (h : c.Wears id channel values)
    (notAlpha : channel ≠ .alpha) (drift : Drift dt cleared c d) : d.Wears id channel values := by
  cases drift with
  | tick =>
    refine ⟨tick_object h.now fun s hs f hf o before => ?_, forall_tick fun s hs t next f is => ?_⟩
    · rcases Slot.property_of_mem_changes hf notAlpha with same | ⟨u, x, task, here, is⟩
      · rw [same]
        exact before
      · rw [is]
        exact h.tweens s hs u task here x
    · exact h.tweens s hs f (Slot.tween_next next is)
  | cancel => exact ⟨h.now, fun s hs => h.tweens s (List.mem_filter.mp hs).1⟩
  | screen task objects =>
    refine ⟨h.now, start h.tweens fun f is => ?_⟩
    exact absurd (is ▸ rfl) objects
  | clear =>
    refine ⟨fun o ho => ?_, h.tweens⟩
    rw [Table.find?_empty] at ho
    contradiction

end Scenery.Wears

/-! ## A value set at once -/

/-- A node without a duration, or applied instantly, gives the property its value and leaves
the tasks alone. -/
theorem Staged.written {setup : Setup} {instant : Bool} {n : Node} {c d : Scenery} {id : String}
    {v : Property} (h : Staged setup instant n c d) (sets : n.Sets id v)
    (atOnce : instant ∨ n.duration = 0) :
    (∀ o, d.objects.find? id = some o → o.property v.channel = v) ∧ d.animator = c.animator := by
  have kind := Node.kind_of_value? sets.1
  cases h with
  | same _ absent =>
    refine ⟨fun o ho => ?_, rfl⟩
    have := absent id v sets
    rw [Table.contains_eq_isSome, ho] at this
    contradiction
  | @write name w sets' =>
    obtain rfl : w = v := Option.some.inj (sets'.1.symm.trans sets.1)
    obtain rfl : name = id := sets'.2.symm.trans sets.2
    refine ⟨fun o ho => ?_, rfl⟩
    rw [Table.find?_modify, if_pos rfl] at ho
    obtain ⟨before, -, rfl⟩ := Option.map_eq_some_iff.mp ho
    exact before.property_set w
  | tween _ timed => exact absurd atOnce (by simp [timed.1, timed.2.ne'])
  | shown shows => grind [Node.Shows]
  | fadeIn shows => grind [Node.Shows]
  | hidden hides => grind [Node.Hides]
  | fadeOut hides => grind [Node.Hides]
  | background backs => grind [Node.Backs]
  | crossfade backs => grind [Node.Backs]
  | shake other => simp [other] at kind
  | screen other => grind

/-- The node leaves a property of an object to what it is: it neither sets it nor shows or
hides the object. -/
def Node.Leaves (n : Node) (id : String) (channel : Channel) : Prop :=
  ¬(n.value?.map Property.channel = some channel ∧ n.param 0 = id) ∧ ¬n.Shows id ∧ ¬n.Hides id

instance (n : Node) (id : String) (channel : Channel) : Decidable (n.Leaves id channel) :=
  inferInstanceAs (Decidable (_ ∧ _))

theorem Node.Leaves.sets {n : Node} {id : String} {channel : Channel} (h : n.Leaves id channel)
    {v : Property} (sets : n.Sets id v) : v.channel ≠ channel := by
  rintro rfl
  exact h.1 ⟨by rw [sets.1]; rfl, sets.2⟩

theorem Node.next_of_value? {n : Node} {v : Property} (h : n.value? = some v) :
    n.next = .proceed := by
  unfold Node.next
  rcases Node.kind_of_value? h with kind | kind | kind | kind <;> rw [kind]

/-! ## Nodes applied instantly -/

/-- No property of an object is on its way. -/
def Scenery.Still (c : Scenery) : Prop :=
  ∀ s ∈ c.animator.slots, ∀ id f, s.task ≠ .tween id f

/-- Nodes applied instantly start no tweens. -/
theorem Staged.still {setup : Setup} {n : Node} {c d : Scenery} (h : Staged setup true n c d)
    (before : c.Still) : d.Still := by
  cases h with
  | same => exact before
  | shown => exact fun s hs => before s (List.mem_filter.mp hs).1
  | fadeIn _ _ timed => exact absurd rfl timed
  | hidden => exact fun s hs => before s (List.mem_filter.mp hs).1
  | fadeOut _ timed => exact absurd rfl timed
  | write => exact before
  | tween _ timed => exact absurd rfl timed.1
  | background => exact before
  | crossfade _ _ timed => exact absurd rfl timed.1
  | shake => exact Animator.forall_start (fun s hs _ => before s hs) nofun
  | screen _ task objects =>
    refine Animator.forall_start (fun s hs _ => before s hs) fun id f is => ?_
    cases is
    exact objects rfl

theorem Drift.still {dt : Nat} {cleared : Prop} {c d : Scenery} (h : Drift dt cleared c d)
    (before : c.Still) : d.Still := by
  cases h with
  | tick =>
    exact Scenery.forall_tick fun s hs t next id f is => before s hs id f (Slot.tween_next next is)
  | cancel => exact fun s hs => before s (List.mem_filter.mp hs).1
  | screen task objects =>
    refine Animator.forall_start (fun s hs _ => before s hs) fun id f is => ?_
    cases is
    exact objects rfl
  | clear => exact before

/-! ## Whole sessions -/

/-- A property keeps its values through nodes that leave it to what it is. -/
theorem Staging.wears {setup : Setup} {instant : Bool} {cleared : Prop} {c d : Scenery}
    {ns : List Node} {id : String} {channel : Channel} {values : Property → Prop}
    (h : Staging setup instant cleared c ns d) (notAlpha : channel ≠ .alpha)
    (leaves : ∀ m ∈ ns, m.Leaves id channel) (begins : c.Wears id channel values) :
    d.Wears id channel values :=
  h.keeps (P := (·.Wears id channel values)) begins
    (fun m hm _ _ before => before.staged notAlpha (fun _ => (leaves m hm).sets) (leaves m hm).2.1)
    fun _ _ before => before.drift notAlpha

namespace Player

variable {p b r : Player} {before after : List Node} {n : Node} {id : String} {v : Property}

/-- What a node set that was applied before the loop began is what the property is as the
loop begins, and no tween is in progress that could change it. -/
theorem opened_wears {scenes : Block} {index : Nat}
    (split : p.prelude scenes index = before ++ n :: after) (sets : n.Sets id v)
    (leaves : ∀ m ∈ after, m.Leaves id v.channel) :
    (p.opened scenes index).scenery.Wears id v.channel (· = v) := by
  -- Nothing can write the value over, as no tween was in progress when it was set.
  obtain ⟨c, d, first, staged, rest⟩ := (p.opened_staging scenes index).split split
  have bare : p.bare.Still := fun s hs => absurd hs List.not_mem_nil
  have still : c.Still :=
    first.keeps (P := Scenery.Still) bare (fun _ _ _ _ before staged => staged.still before)
      fun _ _ before drift => drift.still before
  obtain ⟨written, same⟩ := staged.written sets (.inl rfl)
  refine rest.wears (Node.channel_ne_alpha sets.1) leaves ⟨written, fun s hs f is => ?_⟩
  rw [same] at hs
  exact absurd is (still s hs id f)

/-- When a node sets a property of an object, applied before the loop began or presented
without a duration at any moment of a session, the property has its value. Until another
node sets the property or shows or hides the object, it keeps the value, unless a tween of
the property was in progress as the node was presented: then it may have a value of that
tween instead. And the object stays on stage, if it was not fading out, until the stage is
cleared at the end. -/
theorem written_lasts (begun : Begun b) (id : String) (v : Property) :
    (∀ p scenes index before n after ns q, b = opened p scenes index →
      p.prelude scenes index = before ++ n :: after → n.Sets id v → Plays b ns q →
      (∀ m ∈ after, m.Leaves id v.channel) → (∀ m ∈ ns, m.Leaves id v.channel) →
        ∀ o, q.session.stage.objects.find? id = some o → o.property v.channel = v) ∧
    ∀ before r n, Plays b before r → r.state = .running → r.frame.presenting = some n →
      n.Sets id v → n.duration = 0 →
        (∀ o, r.step.1.session.stage.objects.find? id = some o → o.property v.channel = v) ∧
        ∀ after q, Plays r.step.1 after q → (∀ m ∈ after, m.Leaves id v.channel) →
          (∀ o, q.session.stage.objects.find? id = some o →
            o.property v.channel = v ∨ ∃ s ∈ r.session.animator.slots, ∃ f x,
              s.task = .tween id f ∧ f.channel = v.channel ∧ o.property v.channel = f.value x) ∧
          (r.session.stage.objects.contains id →
            (∀ s ∈ r.session.animator.slots, s.task ≠ .fadeOut id) → ¬q.Struck →
              q.session.stage.objects.contains id) := by
  constructor
  · rintro p scenes index before n after ns q rfl split sets plays earlier later
    have notAlpha := Node.channel_ne_alpha sets.1
    exact (plays.staging.wears notAlpha later (opened_wears split sets earlier)).now
  · intro before r n plays running presenting sets atOnce
    have goesOn := Node.next_of_value? sets.1
    have notAlpha := Node.channel_ne_alpha sets.1
    obtain ⟨staged, -⟩ := begun.presents plays running presenting goesOn .refl
    obtain ⟨written, same⟩ := staged.written sets (.inr atOnce)
    refine ⟨written, fun after q later leaves => ?_⟩
    obtain ⟨-, staging⟩ := begun.presents plays running presenting goesOn later
    constructor
    · -- The tweens in progress at the node are the only ones of the property from then on.
      let values (w : Property) : Prop := w = v ∨ ∃ s ∈ r.session.animator.slots, ∃ f x,
        s.task = .tween id f ∧ f.channel = v.channel ∧ w = f.value x
      have begins : r.step.1.scenery.Wears id v.channel values := by
        refine ⟨fun o ho => .inl (written o ho), fun s hs f is here x => ?_⟩
        rw [same] at hs
        exact .inr ⟨s, hs, f, x, is, here, rfl⟩
      exact (staging.wears notAlpha leaves begins).now
    · intro present lasting uncleared
      have kind := Node.kind_of_value? sets.1
      have stays : ¬n.Hides id := by grind [Node.Hides]
      have begins : r.scenery.Holds id := ⟨present, lasting⟩
      have ends : q.scenery.Holds id :=
        staging.keeps (P := (·.Holds id)) (begins.staged stays staged)
          (fun m hm _ _ h => h.staged (leaves m hm).2.2) fun _ _ h => h.drift uncleared
      exact ends.present

/-- A picture that is moved at once while it grows. -/
def growing : Block :=
  [.directive "@image_in" ["logo"], .directive "@scale" ["logo", "200", "200", "160"],
    .directive "@move" ["logo", "5", "7"], .dialogue "" "grown"]

/-- After the growth is over the picture has its size, and is still where it was put. -/
theorem written_lasts_growing :
    let r := ((new ⟨.any, {}, {}⟩ .accepting).opened growing 0).step.1.step.1
    let q := tick^[20] r.step.1.run
    r.session.animator.slots.length = 1 ∧ q.session.animator.slots = [] ∧
      ((q.session.stage.objects.find? "logo").map (·.property .scale)) = some (.scale 2 2) ∧
      ((q.session.stage.objects.find? "logo").map (·.property .position)) =
        some (.position 5 7) := by
  intro r q
  let p := new ⟨.any, {}, {}⟩ .accepting
  let n := r.frame.presenting.get (by decide +kernel)
  have plays : Plays (p.opened growing 0) _ r := (Plays.refl.round rfl).round (by decide +kernel)
  obtain ⟨still, waits⟩ := plays_ticks 20 r.step.1.run (by decide +kernel)
  have later : Plays r.step.1 (r.step.1.presentedInRun ++ []) q :=
    (plays_run (by decide +kernel)).trans still
  have sets : n.Sets "logo" (.position 5 7) := by decide +kernel
  obtain ⟨values, stays⟩ := ((written_lasts (.opened p growing 0) "logo" (.position 5 7)).2 _ r n
    plays (by decide +kernel) (Option.some_get _).symm sets (by decide +kernel)).2 _ q later
      (by decide +kernel)
  have present := stays (by decide +kernel) (by decide +kernel) (not_struck_of_isWaiting waits)
  rw [Table.contains_eq_isSome, Option.isSome_iff_exists] at present
  obtain ⟨o, ho⟩ := present
  have unmoved : ∀ s ∈ r.session.animator.slots,
      Animator.isTween "logo" .position s.task = false := by decide +kernel
  refine ⟨by decide +kernel, by decide +kernel, by decide +kernel, ?_⟩
  rw [ho]
  rcases values o ho with here | ⟨s, hs, f, x, is, moves, -⟩
  · exact congrArg some here
  · have := unmoved s hs
    rw [is] at this
    simp [Animator.isTween, moves, Property.channel] at this

/-- A picture on its way that is put elsewhere at once. -/
def hurried : Block :=
  [.directive "@image_in" ["logo", "0", "0"], .directive "@move" ["logo", "100", "0", "160"],
    .directive "@move" ["logo", "5", "7"], .dialogue "" "there"]

/-- The first tick moves the picture on from where it was before it was put elsewhere. -/
theorem written_overwritten :
    ∃ (r q : Player) (before after : List Node) (n : Node) (o : StageObject),
      Plays ((new ⟨.any, {}, {}⟩ .accepting).opened hurried 0) before r ∧ r.state = .running ∧
        r.frame.presenting = some n ∧ n.Sets "logo" (.position 5 7) ∧ n.duration = 0 ∧
        Plays r.step.1 after q ∧ (∀ m ∈ after, m.Leaves "logo" .position) ∧ q.isWaiting ∧
        q.session.stage.objects.find? "logo" = some o ∧ o.property .position = .position 10 0 := by
  let p := new ⟨.any, {}, {}⟩ .accepting
  let r := (p.opened hurried 0).step.1.step.1
  let begun := r.step.1.run
  let n := r.frame.presenting.get (by decide +kernel)
  obtain ⟨still, waits⟩ := plays_ticks 1 begun (by decide +kernel)
  rw [Function.iterate_one] at still waits
  have plays : Plays (p.opened hurried 0) _ r := (Plays.refl.round rfl).round (by decide +kernel)
  have later : Plays r.step.1 (r.step.1.presentedInRun ++ []) begun.tick :=
    (plays_run (by decide +kernel)).trans still
  obtain ⟨o, found, place⟩ := Option.map_eq_some_iff.mp
    (show (begun.tick.session.stage.objects.find? "logo").map (·.property .position) =
      some (.position 10 0) by decide +kernel)
  exact ⟨r, begun.tick, _, _, n, o, plays, by decide +kernel, (Option.some_get _).symm,
    by decide +kernel, by decide +kernel, later, by decide +kernel, waits, found, place⟩

end Player

end VisualNovel
