import VisualNovel.Proofs.Player.Tracking

/-!
# The story of the replies

A host drives a player by ticks and by replies, each of which it gives at a wait
(`Player.Driven`). What the story comes to is then a matter of the replies alone:
`Story.Told` is the story they tell, it ends in one wait at most, and it does not know
of ticks.

> `told_of_driven`: however a player is driven, its story is one its replies tell.

> `story_eq_of_replies`: two players of one script, told the same, wait at the same
> story, whatever their setups, their sinks and their ticks.
-/

namespace VisualNovel

namespace Story

/-- A story becomes another with these replies: it leads to a wait for each of them,
and after the last one to the other story. -/
def Told (s : Story) : List Reply → Story → Prop
  | [], t => Leads s t
  | r :: rs, t => ∃ w, Leads s w ∧ w.isWaiting = true ∧ Told (w.reply r).untimed rs t

theorem Told.of_leads {s t u : Story} {rs : List Reply} (h : Leads s t) (ht : t.Told rs u) :
    s.Told rs u := by
  cases rs with
  | nil => exact h.trans ht
  | cons r rs =>
    obtain ⟨w, hw, waits, told⟩ := ht
    exact ⟨w, h.trans hw, waits, told⟩

/-- The same replies tell one wait at most. -/
theorem Told.unique {s t u : Story} {rs : List Reply} (ht : s.Told rs t) (hu : s.Told rs u)
    (wt : t.isWaiting = true) (wu : u.isWaiting = true) : t = u := by
  induction rs generalizing s with
  | nil => exact Leads.unique ht hu wt wu
  | cons r rs ih =>
    obtain ⟨v, hv, wv, toldt⟩ := ht
    obtain ⟨w, hw, ww, toldu⟩ := hu
    obtain rfl : v = w := hv.unique hw wv ww
    exact ih toldt toldu

end Story

namespace Player

open Story (Told)

variable (slots : SaveSlots Id)

/-- The players a host comes to by ticks and by taking cues, as often as it likes, and
by these replies, each given at a wait. -/
inductive Driven : Player → List Reply → Player → Prop
  | refl (p : Player) : Driven p [] p
  | tick {p q : Player} {rs : List Reply} : Driven p.tick rs q → Driven p rs q
  | cues {p q : Player} {rs : List Reply} : Driven p.takeCues.2 rs q → Driven p rs q
  | reply {p q : Player} {r : Reply} {rs : List Reply} (waits : p.isWaiting = true) :
      Driven (Id.run (p.feed slots r.answer)) rs q → Driven p (r :: rs) q

variable {slots slots' : SaveSlots Id} {p p' q q' : Player} {rs : List Reply}

/-- However a player is driven, its story becomes one its replies tell. -/
theorem told_of_driven (h : Driven slots p rs q) :
    p.story.untimed.Told rs q.story.untimed := by
  induction h with
  | refl p => exact Relation.ReflTransGen.refl
  | tick _ ih => exact .of_leads (leads_tick _) ih
  | cues _ ih => exact ih
  | @reply p q r rs waits _ ih =>
    have atWait : p.story.untimed = p.story := Story.untimed_of_isWaiting waits
    refine ⟨p.story, ?_, waits, .of_leads (p.leads_feed slots r) ih⟩
    rw [atWait]
    exact .refl

/-- Players that wait, driven from where the same replies tell the same, have the same
story. -/
theorem story_eq_of_told {s : Story} (h : s.Told rs q.story.untimed)
    (h' : s.Told rs q'.story.untimed) (hw : q.isWaiting = true) (hw' : q'.isWaiting = true) :
    q.story = q'.story := by
  have atWait : q.story.untimed = q.story := Story.untimed_of_isWaiting hw
  have atWait' : q'.story.untimed = q'.story := Story.untimed_of_isWaiting hw'
  rw [atWait] at h
  rw [atWait'] at h'
  exact h.unique h' hw hw'

/-- Two players of any setups and sinks, started on the same script at the same index
and given the same replies, have the same story at the wait after them: the state, the
cursor with the places to return to, the variables, the history, the speaker, the line
and the choices offered. -/
theorem story_eq_of_replies (scenes : Block) (index : Nat)
    (h : Driven slots (p.start scenes index) rs q)
    (h' : Driven slots' (p'.start scenes index) rs q')
    (hw : q.isWaiting = true) (hw' : q'.isWaiting = true) : q.story = q'.story :=
  story_eq_of_told (.of_leads (p.leads_start scenes index) (told_of_driven h))
    (.of_leads (p'.leads_start scenes index) (told_of_driven h')) hw hw'

/-- A line, a choice that jumps, and the lines it jumps to. -/
def fork : Block :=
  [.dialogue "" "left or right", .choice [⟨"left", "*left"⟩, ⟨"right", "*right"⟩],
    .ofLabel "left", .dialogue "" "left", .ofLabel "right", .dialogue "" "right"]

/-- The second player finds no asset, plays no sound, and needs a tick for each node. -/
theorem story_eq_of_replies_fork :
    let slots : SaveSlots Id := ⟨fun _ _ => (), fun _ => none⟩
    let p := new ⟨fun _ name => some name, {}, {}⟩ .accepting
    let p' := new ⟨fun _ _ => none, { tickMs := 1, stepsPerRun := 1 }, {}⟩ ⟨[], 0, fun _ _ => false⟩
    ∃ q q', Driven slots (p.start fork 0) [.proceed, .choose 1] q ∧
      Driven slots (p'.start fork 0) [.proceed, .choose 1] q' ∧
      q.isWaiting = true ∧ q'.isWaiting = true ∧ q.frame.pc = 5 ∧ q.story = q'.story := by
  intro slots p p'
  have h : Driven slots (p.start fork 0) [.proceed, .choose 1] _ :=
    .reply (by decide +kernel) (.reply (by decide +kernel) (.refl _))
  have h' : Driven slots (p'.start fork 0) [.proceed, .choose 1] _ :=
    .reply (by decide +kernel) (.tick (.reply (by decide +kernel) (.tick (.tick (.refl _)))))
  refine ⟨_, _, h, h', ?_, ?_, ?_, story_eq_of_replies fork 0 h h' ?_ ?_⟩
  all_goals decide +kernel

end Player

end VisualNovel
