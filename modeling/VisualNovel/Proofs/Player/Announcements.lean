import VisualNovel.Proofs.Player.Ending
import VisualNovel.Proofs.Player.Events
import VisualNovel.Proofs.Player.Signals
import VisualNovel.Proofs.Stage.Swaps

/-!
# Backgrounds are announced

A background comes on stage by two ways: at once, with its node, or in the middle of a crossfade,
ticks later, when its task signals the change. Each way has to queue its own cue, and in the order
in which the backgrounds come. A presentation that only follows the cues then has in front of it
the background of the stage, up to the end of the session, where the stage is cleared without a
word.

> `Slot.told_signals`: a task signals the backgrounds that it shows.

> `Session.Announces`: what was announced on the way is what has become of the background.

> `Player.background_announced`: the last announcement is the background on stage.
-/

namespace VisualNovel

open Change Relation

/-- A background as it is told: its name, if it has one, and its locator. -/
abbrev Backdrop := Option String × Option String

/-- How a background is told. The empty one has no name. -/
def Backdrop.told (name : String) (locator : Option String) : Backdrop :=
  (if name = "_" then none else some name, locator)

/-- The background told last. -/
def Cue.lastTold (cues : List Cue) : Option Backdrop := (cues.filterMap Cue.background?).getLast?

/-- The last announcement is among the later cues, if there is one. -/
theorem Cue.lastTold_append (cues more : List Cue) :
    lastTold (cues ++ more) = (lastTold more).or (lastTold cues) := by
  unfold lastTold
  rw [List.filterMap_append, List.getLast?_append]

namespace Stage

variable {s t : Stage} {told : Option Backdrop}

/-- The stage shows the background told last; as long as none was told, it shows none. -/
def Shows (stage : Stage) : Option Backdrop → Prop
  | some told => told = .told stage.backgroundName stage.background
  | none => stage.background = none ∧ stage.backgroundName = ""

/-- Whether a stage shows what was told depends on its background only. -/
theorem Shows.congr (h : s.Shows told) (background : t.background = s.background)
    (name : t.backgroundName = s.backgroundName) : t.Shows told := by
  unfold Shows
  rw [background, name]
  exact h

/-- A stage that shows what was told has that background. -/
theorem Shows.background {name locator : Option String} (h : s.Shows (some (name, locator))) :
    s.background = locator := (congrArg Prod.snd h).symm

end Stage

namespace Change

/-- The background that a write shows, as it is told. -/
def told? : Change → Option Backdrop
  | background name locator => some (.told name locator)
  | _ => none

/-- A write shows what it tells, and is silent if it leaves the background. -/
theorem apply_shows (c : Change) {stage : Stage} {told : Option Backdrop} (h : stage.Shows told) :
    (apply stage c).Shows (c.told?.or told) := by
  cases c with
  | background => exact rfl
  | removal name =>
    simp only [apply, removeObject_eq]
    exact h.congr rfl rfl
  | _ => exact h.congr rfl rfl

/-- Of the backgrounds that writes show, the last one is on stage. -/
theorem applyAll_shows (cs : List Change) {stage : Stage} {told : Option Backdrop}
    (h : stage.Shows told) :
    (applyAll cs stage).Shows ((cs.filterMap told?).getLast?.or told) := by
  induction cs generalizing stage told with
  | nil => exact h
  | cons c cs ih =>
    have first : c.told?.toList.getLast? = c.told? := by cases c.told? <;> rfl
    rw [filterMap_cons_toList, List.getLast?_append, first, Option.or_assoc]
    exact ih (apply_shows c h)

end Change

/-! ## Tasks -/

/-- Letters tell nothing about the background. -/
theorem Slot.letters_silent (shown due : Nat) :
    (Slot.letters shown due).filterMap Signal.cue? = [] := by
  refine List.filterMap_eq_nil_iff.mpr fun signal hs => ?_
  obtain ⟨index, -, rfl⟩ := List.mem_map.mp hs
  rfl

/-- A task signals the backgrounds that it shows. -/
theorem Slot.told_signals (dt : Nat) (s : Slot) :
    ((s.signals dt).filterMap Signal.cue?).filterMap Cue.background? =
      (s.changes dt).filterMap told? := by
  obtain ⟨id, task, step, steps, easing⟩ := s
  unfold signals changes advance
  cases task with
  | crossfade name locator swapped =>
    dsimp only [stepped]
    split
    next => rfl
    next => rfl
  | reveal text total shown interval elapsed =>
    dsimp only
    rw [letters_silent]
    split
    next => rfl
    next => rfl
  | objectShake | screenShake =>
    dsimp only
    split
    next => rfl
    next => rfl
  | fadeOut =>
    dsimp only [stepped]
    split
    next => rfl
    next => rfl
  | _ => rfl

/-- A tick shows the backgrounds that its signals tell. -/
theorem Animator.tick_shows (a : Animator) (dt : Nat) {stage : Stage} {told : Option Backdrop}
    (h : stage.Shows told) :
    (a.tick dt stage).2.1.Shows
      ((Cue.lastTold ((a.tick dt stage).2.2.filterMap Signal.cue?)).or told) := by
  have signals : ((a.tick dt stage).2.2.filterMap Signal.cue?).filterMap Cue.background? =
      (a.slots.flatMap (Slot.changes dt)).filterMap told? := by
    rw [tick_signals, List.filterMap_flatMap, List.filterMap_flatMap, List.filterMap_flatMap]
    exact congrArg (a.slots.flatMap ·) (funext (Slot.told_signals dt))
  unfold Cue.lastTold
  rw [signals, tick_stage]
  exact applyAll_shows _ h

/-! ## Sessions -/

namespace Session

variable {setup : Setup} {instant : Bool} {s t u : Session}

/-- The cues queued between two sessions tell what has become of the background. -/
def Announces (s t : Session) : Prop :=
  ∃ more, t.cues = s.cues ++ more ∧
    ∀ told, s.stage.Shows told → t.stage.Shows ((Cue.lastTold more).or told)

namespace Announces

/-- If neither the background nor the cues change there is nothing to announce. -/
theorem of_still (background : t.stage.background = s.stage.background)
    (name : t.stage.backgroundName = s.stage.backgroundName) (cues : t.cues = s.cues) :
    Announces s t :=
  ⟨[], by rw [cues, List.append_nil], fun _ shows => shows.congr background name⟩

/-- A cue may be queued that is about something else. -/
theorem of_cue {c : Cue} (other : c.background? = none)
    (background : t.stage.background = s.stage.background)
    (name : t.stage.backgroundName = s.stage.backgroundName) (cues : t.cues = s.cues ++ [c]) :
    Announces s t := by
  refine ⟨[c], cues, fun told shows => ?_⟩
  have nothing : Cue.lastTold [c] = none := by
    unfold Cue.lastTold
    rw [List.filterMap_cons_none other]
    rfl
  rw [nothing]
  exact shows.congr background name

theorem refl (s : Session) : Announces s s := .of_still rfl rfl rfl

/-- Announcements on the way add up. -/
theorem trans (h : Announces s t) (h' : Announces t u) : Announces s u := by
  obtain ⟨more, queued, shows⟩ := h
  obtain ⟨more', queued', shows'⟩ := h'
  refine ⟨more ++ more', by rw [queued', queued, List.append_assoc], fun told before => ?_⟩
  rw [Cue.lastTold_append, Option.or_assoc]
  exact shows' _ (shows told before)

end Announces

/-- Each act announces the background that it shows, in its own cue. -/
theorem Act.announces (h : Act setup instant s t) : Announces s t := by
  cases h with
  | notice _ c other => exact .of_cue other rfl rfl rfl
  | background name locator => exact ⟨[_], rfl, fun _ _ => rfl⟩
  | take name =>
    refine .of_still ?_ ?_ rfl
    · simp only [removeObject_eq]
    · simp only [removeObject_eq]
  | _ => exact .of_still rfl rfl rfl

/-- So do acts one after the other. -/
theorem Acts.announces (h : Acts setup instant s t) : Announces s t := by
  induction h with
  | refl => exact .refl _
  | tail _ act ih => exact ih.trans act.announces

end Session

namespace Player

open Session (Announces)

variable {p q : Player} {s : Session} {log : List Cue}

/-- A wait queues the cue of its preloads, which is about no background. -/
theorem announces_suspend (p : Player) (state : PlayerState) :
    Announces p.session (p.suspend state).session := by
  have preloaded (q : Player) : Announces q.session q.preload.session := by
    unfold preload
    dsimp only
    split
    next => exact .refl _
    next => exact .of_cue rfl rfl rfl rfl
  have faded (q : Player) : Announces q.session q.startFadeIn.session := by
    unfold startFadeIn
    split
    next => exact .of_still rfl rfl rfl
    next => exact .refl _
  exact (preloaded { p with state := state }).trans (faded _)

/-- A handler announces what its node shows. -/
theorem announces_dispatch (p : Player) (n : Node) :
    Announces p.session (p.dispatch n).1.session := by
  have presented : Announces p.session (p.presented n).session :=
    (Session.acts_present p.setup false n p.session).announces
  rw [dispatch_eq]
  cases (p.session.present p.setup false n).next with
  | proceed => exact presented
  | waitClick => exact presented.trans ((p.presented n).announces_suspend _)
  | waitChoice => exact presented.trans ((p.presented n).announces_suspend _)
  | delay ms => exact presented

/-- A tick queues one cue for each signal of the animator, in order. -/
theorem announces_animate (p : Player) : Announces p.session p.animate.session := by
  rw [p.animate_session]
  exact ⟨_, rfl, fun _ => p.session.animator.tick_shows _⟩

/-- Up to its end a session announces what becomes of the background. -/
def Heralds (s : Session) (p : Player) : Prop := p.Over ∨ Announces s p.session

/-- What is announced from a moment on goes behind what was announced up to it. -/
theorem Heralds.trans (h : Heralds s p) (closed : p.Over → q.Over)
    (announces : Announces p.session q.session) : Heralds s q :=
  h.imp closed fun before => before.trans announces

/-- A round announces what it shows, unless it is the last one. -/
theorem Heralds.step (h : Heralds s p) (running : p.state = .running) : Heralds s p.step.1 := by
  have going : ¬p.Over := by simp [Over, running]
  have before : Announces s p.session := h.resolve_left going
  cases presenting : p.frame.presenting with
  | some n =>
    rw [p.step_of_presenting presenting]
    exact .inr (before.trans (p.announces_dispatch n))
  | none =>
    rcases step_of_presenting_none presenting with ⟨same, -⟩ | closing
    · exact .inr (same ▸ before)
    · -- What the end does to the stage is not announced.
      rw [closing]
      exact .inl (.inl p.beginClose_state)

/-- So does a run of the loop. -/
theorem Heralds.run (h : Heralds s p) (running : p.state = .running) : Heralds s p.run :=
  run_keeps (fun _ before => before.step) h running

/-! ## Calls of a host -/

/-- A tick announces the backgrounds of the loop, then those of the animator. -/
theorem heralds_tick (p : Player) : Heralds p.session p.tick := by
  have counted : Heralds p.session p.countDown := .inr (p.countDown_session ▸ .refl _)
  have resumed : Heralds p.session p.countDown.resume := by
    unfold resume
    split
    next running => exact counted.run running
    next => exact counted
  have animated : Heralds p.session p.countDown.resume.animate :=
    resumed.trans (fun closed => by unfold Over; rwa [animate_state]) (announces_animate _)
  unfold tick
  dsimp only
  split
  next closing => exact .inl (over_closeTick closing)
  next => exact animated

/-- A click announces what the loop shows when it goes on. -/
theorem heralds_advance (p : Player) : Heralds p.session p.advance := by
  rcases p.advance_cases with same | ⟨id, revealed⟩ | ⟨-, left⟩
  · rw [same]
    exact .inr (.refl _)
  · rw [revealed]
    exact .inr (.of_still rfl rfl rfl)
  · rw [left]
    exact Heralds.run (p := p.left) (.inr (.of_still rfl rfl rfl)) rfl

/-- An option announces what the loop shows from its target on. -/
theorem heralds_choose (p : Player) (target : String) : Heralds p.session (p.choose target) := by
  by_cases waiting : p.state = .waitingForChoice
  · rw [choose_eq_chosen _ target waiting]
    refine Heralds.run (.inr ?_) rfl
    unfold Player.chosen
    dsimp only
    split
    next => exact .of_still rfl rfl rfl
    next => exact .of_still rfl rfl rfl
  · unfold choose
    rw [if_neg waiting]
    exact .inr (.refl _)

/-- So does an option that is chosen by its place. -/
theorem heralds_chooseOption (p : Player) (index : Nat) :
    Heralds p.session (p.chooseOption index) := by
  unfold chooseOption
  split
  next =>
    split
    next o _ => exact p.heralds_choose o.target
    next => exact .inr (.refl _)
  next => exact .inr (.refl _)

/-- Every call of a host announces what it shows. -/
theorem Entry.heralds (h : Entry p q) : Heralds p.session q := by
  cases h with
  | tick => exact p.heralds_tick
  | advance => exact p.heralds_advance
  | choose target => exact p.heralds_choose target
  | chooseOption index => exact p.heralds_chooseOption index
  | dispose => exact .inl (.inr rfl)

/-- What is applied before the loop begins is announced, from a stage without a background. -/
theorem heralds_start (p : Player) (scenes : Block) (index : Nat) :
    ∃ s : Session, s.cues = [] ∧ s.stage = .empty ∧ Heralds s (p.start scenes index) := by
  obtain ⟨audio, loaded, fresh⟩ := p.fresh_eq
  have applied := (Session.acts_replayAll p.fresh.setup p.fresh.session
    (scenes.take (min index (scenes.length - 1)))).announces
  have opened : Announces p.fresh.session (p.opened scenes index).session :=
    applied.trans (.of_still rfl rfl rfl)
  exact ⟨p.fresh.session, by rw [fresh], by rw [fresh], Heralds.run (.inr opened) rfl⟩

/-! ## The last announcement -/

/-- While a session is not over its stage shows what the log tells last. -/
theorem Logged.heralded (h : Logged p log) :
    p.Over ∨ p.session.stage.Shows (Cue.lastTold log) := by
  induction h with
  | new => exact .inr ⟨rfl, rfl⟩
  | @start p log scenes index =>
    obtain ⟨s, cues, stage, heralds⟩ := p.heralds_start scenes index
    refine heralds.imp_right ?_
    rintro ⟨more, queued, shows⟩
    have begun : s.stage.Shows none := by rw [stage]; exact ⟨rfl, rfl⟩
    rw [queued, cues, List.nil_append, ← Option.or_none (o := Cue.lastTold more)]
    exact shows none begun
  | @call p q log _ entry ih =>
    rcases ih with closed | before
    · exact .inl (entry.over closed)
    · refine entry.heralds.imp_right ?_
      rintro ⟨more, queued, shows⟩
      rw [queued, List.drop_left, Cue.lastTold_append]
      exact shows _ before
  -- The log keeps what a host has taken.
  | takeCues _ ih => exact ih

/-- After every call that leaves the session open, the last cue about the background since the
start, taken or not, tells the background that is on stage; and if there was none, no background
is. -/
theorem background_announced (h : Logged p log) (notClosing : p.state ≠ .closing)
    (notTerminated : p.state ≠ .terminated) : p.session.stage.Shows (Cue.lastTold log) :=
  h.heralded.resolve_left fun closed => closed.elim notClosing notTerminated

/-- A room at once, and a garden that takes its time, behind a line. -/
def stroll : Block :=
  [.directive "@bg" ["room"], .directive "@bg" ["garden", "100"], .dialogue "" "hello"]

/-- While the line waits the room is on stage and told; when the cover is full, the garden. -/
theorem background_announced_stroll :
    let begun := (new ⟨.any, {}, {}⟩ .accepting).start stroll 0
    let p := begun.takeCues.2.tick.tick.tick.tick
    begun.session.stage.background = some "bg/room" ∧
      Cue.lastTold begun.session.cues = some (some "room", some "bg/room") ∧
      p.state = .waitingForClick ∧ p.session.stage.background = some "bg/garden" ∧
      ∃ log, Logged p log ∧ Cue.lastTold log = some (some "garden", some "bg/garden") := by
  intro begun p
  have started : Logged begun begun.session.cues := (Logged.new _ _).start stroll 0
  have room : Cue.lastTold begun.session.cues = some (some "room", some "bg/room") := by
    decide +kernel
  have garden : ∃ log, Logged p log ∧ Cue.lastTold log = some (some "garden", some "bg/garden") :=
    ⟨_, ((((started.takeCues).call .tick).call .tick).call .tick).call .tick, by decide +kernel⟩
  have waits : p.state = .waitingForClick := by decide +kernel
  have ⟨log, logged, told⟩ := garden
  have before := background_announced started (by decide +kernel) (by decide +kernel)
  have after := background_announced logged (by rw [waits]; nofun) (by rw [waits]; nofun)
  rw [room] at before
  rw [told] at after
  exact ⟨before.background, room, waits, after.background, garden⟩

end Player

end VisualNovel
