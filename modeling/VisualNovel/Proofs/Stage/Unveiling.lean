import VisualNovel.Proofs.Markup.Reveal
import VisualNovel.Proofs.Stage.Operations
import VisualNovel.Proofs.Stage.Reveals

/-!
# A line is revealed

A line is revealed one visible character after the other, from the first tick on. How many
show is a matter of the ticks alone: of the time that passed before the last of them. The
message is the beginning of the line that shows so many characters, and each tick sounds those
of the odd characters that it adds; so put together, the ticks sound every odd character that
shows, once. Tasks of other kinds may come and go meanwhile, and so may what else is on stage.

> `Unveiled.tick_going`: what a tick adds to the message and to the sounds.

> `Unveiling.reveals_all`: what a reveal has shown, sounded and left to do at any moment.
-/

namespace VisualNovel

open Change Animator

/-! ## What a tick shows and signals -/

namespace Change

/-- The message that a write shows. -/
def message? : Change → Option String
  | message text => some text
  | _ => none

/-- The message after writes is the last of those they show. -/
theorem applyAll_message_eq (cs : List Change) (stage : Stage) :
    (applyAll cs stage).message =
      (cs.filterMap message?).foldl (fun _ text => text) stage.message := by
  induction cs generalizing stage with
  | nil => rfl
  | cons c cs ih =>
    refine (ih (apply stage c)).trans ?_
    cases c with
    | removal name =>
      simp only [apply, removeObject_eq]
      rfl
    | _ => rfl

end Change

/-- The character whose sound a signal asks for. -/
def Signal.letter? : Signal → Option Nat
  | .letter index => some index
  | .backgroundSwapped .. => none

namespace Slot

/-- What a task signals in a tick. -/
def signals (dt : Nat) (s : Slot) : List Signal := (s.advance dt .empty).signals

/-- What a task signals has nothing to do with the stage. -/
theorem advance_signals (dt : Nat) (s : Slot) (stage : Stage) :
    (s.advance dt stage).signals = s.signals dt := by
  obtain ⟨id, task, step, steps, easing⟩ := s
  unfold signals advance
  cases task with
  | tween | fadeOut | crossfade | transition | flash | reveal => rfl
  | objectShake | screenShake =>
    dsimp only
    split
    next => rfl
    next => rfl

/-- Only a reveal writes the message. -/
theorem message?_changes {s : Slot} (h : isReveal s.task = false) (dt : Nat) :
    (s.changes dt).filterMap message? = [] := by
  refine List.filterMap_eq_nil_iff.mpr fun c hc => ?_
  cases c with
  | message text =>
    obtain ⟨line, reveals, -⟩ := message_mem_changes hc
    rw [isReveal_of_line? reveals] at h
    contradiction
  | _ => rfl

/-- Only a reveal sounds letters. -/
theorem letter?_signals {s : Slot} (h : isReveal s.task = false) (dt : Nat) :
    (s.signals dt).filterMap Signal.letter? = [] := by
  obtain ⟨id, task, step, steps, easing⟩ := s
  unfold signals advance
  cases task with
  | reveal => contradiction
  | crossfade =>
    dsimp only [stepped]
    split
    next => rfl
    next => rfl
  | objectShake | screenShake =>
    dsimp only
    split
    next => rfl
    next => rfl
  | _ => rfl

end Slot

theorem flatMap_eq_flatMap_filter {α β : Type} {p : α → Bool} {f : α → List β} (l : List α)
    (h : ∀ x, p x = false → f x = []) : l.flatMap f = (l.filter p).flatMap f := by
  induction l with
  | nil => rfl
  | cons x l ih =>
    cases hx : p x with
    | true => rw [List.filter_cons_of_pos hx, List.flatMap_cons, List.flatMap_cons, ih]
    | false => rw [List.filter_cons_of_neg (by simp [hx]), List.flatMap_cons, h x hx, ih,
        List.nil_append]

namespace Animator

theorem tickSlots_signals (dt : Nat) (ss : List Slot) (stage : Stage) :
    (tickSlots dt ss stage).2.2 = ss.flatMap (Slot.signals dt) := by
  induction ss generalizing stage with
  | nil => rfl
  | cons s ss ih =>
    dsimp only [tickSlots]
    rw [ih, Slot.advance_signals, List.flatMap_cons]

/-- The message after a tick is up to the reveals. -/
theorem tick_message (a : Animator) (dt : Nat) (stage : Stage) :
    (a.tick dt stage).2.1.message =
      (a.reveals.flatMap fun s => (s.changes dt).filterMap message?).foldl
        (fun _ text => text) stage.message := by
  rw [tick_stage, applyAll_message_eq, List.filterMap_flatMap]
  congr 1
  exact flatMap_eq_flatMap_filter a.slots fun s other => Slot.message?_changes other dt

/-- The letters that a tick sounds are up to the reveals. -/
theorem tick_letters (a : Animator) (dt : Nat) (stage : Stage) :
    (a.tick dt stage).2.2.filterMap Signal.letter? =
      a.reveals.flatMap fun s => (s.signals dt).filterMap Signal.letter? := by
  have signals : (a.tick dt stage).2.2 = a.slots.flatMap (Slot.signals dt) :=
    tickSlots_signals dt a.slots stage
  rw [signals, List.filterMap_flatMap]
  exact flatMap_eq_flatMap_filter a.slots fun s other => Slot.letter?_signals other dt

end Animator

/-! ## How much shows -/

/-- How many characters of a text show after ticks of these lengths: one after the first, and
one more for each interval that passed since. -/
def shownAfter (text : String) (interval : Nat) (dts : List Nat) : Nat :=
  if dts = [] then 0
  else min (dts.dropLast.sum / max interval 1 + 1) (Markup.visibleLength text.toList)

section Shown

variable (text : String) (interval : Nat) (dts : List Nat) (dt : Nat)

theorem shownAfter_nil : shownAfter text interval [] = 0 := if_pos rfl

theorem shownAfter_concat :
    shownAfter text interval (dts ++ [dt]) =
      min (dts.sum / max interval 1 + 1) (Markup.visibleLength text.toList) := by
  rw [shownAfter, if_neg (by simp), List.dropLast_concat]

theorem shownAfter_le : shownAfter text interval dts ≤ Markup.visibleLength text.toList := by
  unfold shownAfter
  split
  next => exact Nat.zero_le _
  next => exact Nat.min_le_right _ _

/-- What shows goes on showing. -/
theorem shownAfter_le_concat :
    shownAfter text interval dts ≤ shownAfter text interval (dts ++ [dt]) := by
  rw [shownAfter_concat]
  unfold shownAfter
  split
  next => exact Nat.zero_le _
  next some =>
    have before : dts.dropLast.sum ≤ dts.sum :=
      (List.dropLast_sublist dts).sum_le_sum fun _ _ => Nat.zero_le _
    exact min_le_min_right _ (Nat.succ_le_succ (Nat.div_le_div_right before))

end Shown

/-- The message once so many characters of a text show, over the one before. -/
def messageAt (text before : String) (shown : Nat) : String :=
  if shown = 0 then before else String.ofList (Markup.revealed text.toList shown)

/-- The letters of the characters that show. -/
def soundsTo (shown : Nat) : List Nat := (List.range' 1 shown).filter (· % 2 == 1)

/-- The characters that a tick adds sound after those that showed before. -/
theorem soundsTo_append_letters {shown due : Nat} (h : shown ≤ due) :
    soundsTo shown ++ (Slot.letters shown due).filterMap Signal.letter? = soundsTo due := by
  have added : (Slot.letters shown due).filterMap Signal.letter? =
      (List.range' (shown + 1) (due - shown)).filter (· % 2 == 1) := by
    unfold Slot.letters
    rw [List.filterMap_map, List.range_eq_range', List.drop_range', Nat.mul_one, Nat.zero_add,
      Nat.add_sub_add_right]
    exact List.filterMap_some
  obtain ⟨more, rfl⟩ := Nat.exists_eq_add_of_le h
  rw [added, soundsTo, soundsTo, ← List.filter_append, Nat.add_sub_cancel_left,
    Nat.add_comm shown 1, List.range'_append_1]

/-! ## The course of a reveal -/

/-- A reveal at its place after ticks. -/
def Slot.revealing (text : String) (interval : Nat) (id : TaskId) (dts : List Nat) : Slot where
  id := id
  task := .reveal text.toList (Markup.visibleLength text.toList) (shownAfter text interval dts)
    (max interval 1) dts.sum
  step := 0
  steps := 1
  easing := .linear

/-- A tick takes a reveal to its next place, or ends it once all of the text shows. -/
theorem Slot.next_revealing (text : String) (interval : Nat) (id : TaskId) (dts : List Nat)
    (dt : Nat) :
    (revealing text interval id dts).next dt =
      if shownAfter text interval (dts ++ [dt]) < Markup.visibleLength text.toList then
        some (revealing text interval id (dts ++ [dt]))
      else none := by
  have grows := shownAfter_le_concat text interval dts dt
  rw [shownAfter_concat] at grows ⊢
  unfold next advance revealing
  dsimp only
  rw [Nat.max_eq_right grows]
  by_cases left : min (dts.sum / max interval 1 + 1) (Markup.visibleLength text.toList) <
      Markup.visibleLength text.toList
  · rw [if_pos left, if_neg (Nat.not_le.mpr left), shownAfter_concat, List.sum_append,
      List.sum_singleton]
  · rw [if_neg left, if_pos (Nat.not_lt.mp left)]

/-- A tick of a reveal shows what came due, if anything did. -/
theorem Slot.message_revealing (text before : String) (interval : Nat) (id : TaskId)
    (dts : List Nat) (dt : Nat) :
    (((revealing text interval id dts).changes dt).filterMap message?).foldl
        (fun _ text => text) (messageAt text before (shownAfter text interval dts)) =
      messageAt text before (shownAfter text interval (dts ++ [dt])) := by
  have grows := shownAfter_le_concat text interval dts dt
  rw [shownAfter_concat] at grows ⊢
  unfold changes revealing
  dsimp only
  generalize shownAfter text interval dts = shown at grows
  generalize min (dts.sum / max interval 1 + 1) (Markup.visibleLength text.toList) = due at grows
  by_cases more : shown < due
  · have some : due ≠ 0 := by omega
    rw [if_pos more, messageAt, messageAt, if_neg some]
    rfl
  · rw [if_neg more, Nat.le_antisymm grows (Nat.not_lt.mp more)]
    rfl

/-- What a tick of a reveal sounds. -/
theorem Slot.signals_revealing (text : String) (interval : Nat) (id : TaskId) (dts : List Nat)
    (dt : Nat) :
    (revealing text interval id dts).signals dt =
      letters (shownAfter text interval dts) (shownAfter text interval (dts ++ [dt])) := by
  rw [shownAfter_concat]
  rfl

/-- An operation that neither starts a reveal nor drops one. -/
def Animator.Operation.Spares (id : TaskId) : Operation → Prop
  | .reveal .. | .cancelAll | .tick .. => False
  | .cancel other => other ≠ id
  | _ => True

/-- The course of a reveal from its start on: after ticks of these lengths, with an animator and
a stage before the next, and all that was signalled. Between ticks other tasks are started and
dropped, and all of the stage but the message may change. -/
inductive Unveiling (text : String) (interval : Nat) (id : TaskId) (before : String) :
    List Nat → Animator → Stage → List Signal → Prop
  | start {a : Animator} {stage : Stage} (built : a.Built)
      (given : (a.reveal text interval).2 = id) (message : stage.message = before) :
      Unveiling text interval id before [] (a.reveal text interval).1 stage []
  | meanwhile {dts : List Nat} {a : Animator} {stage : Stage} {signals : List Signal}
      (h : Unveiling text interval id before dts a stage signals) (op : Operation)
      (spares : op.Spares id) (inRange : op.InRange) :
      Unveiling text interval id before dts (a.perform op).1 stage signals
  | restage {dts : List Nat} {a : Animator} {stage stage' : Stage} {signals : List Signal}
      (h : Unveiling text interval id before dts a stage signals)
      (message : stage'.message = stage.message) :
      Unveiling text interval id before dts a stage' signals
  | tick {dts : List Nat} {a : Animator} {stage : Stage} {signals : List Signal}
      (h : Unveiling text interval id before dts a stage signals) (dt : Nat) :
      Unveiling text interval id before (dts ++ [dt]) (a.tick dt stage).1 (a.tick dt stage).2.1
        (signals ++ (a.tick dt stage).2.2)

/-- What holds along the course of a reveal. -/
structure Unveiled (text : String) (interval : Nat) (id : TaskId) (before : String)
    (dts : List Nat) (a : Animator) (stage : Stage) (signals : List Signal) : Prop where
  built : a.Built
  tags : a.Tags .message id
  /-- The reveal is the only one, and in progress until all of the text shows. -/
  reveals : a.reveals =
    if dts = [] ∨ shownAfter text interval dts < Markup.visibleLength text.toList then
      [Slot.revealing text interval id dts]
    else []
  message : stage.message = messageAt text before (shownAfter text interval dts)
  sounds : signals.filterMap Signal.letter? = soundsTo (shownAfter text interval dts)

namespace Unveiled

variable {text before : String} {interval : Nat} {id : TaskId} {dts : List Nat} {a : Animator}
  {stage : Stage} {signals : List Signal}

/-- A reveal begins with nothing shown. -/
theorem start (built : a.Built) (given : (a.reveal text interval).2 = id)
    (message : stage.message = before) :
    Unveiled text interval id before [] (a.reveal text interval).1 stage [] where
  built := built.reveal text interval
  tags := by
    have issued := (Grows.drop a isReveal).issued built.ordered.issued
    exact given ▸ issued.tags_push _ _ _
  reveals := by
    unfold Animator.reveal at given ⊢
    rw [if_pos (.inl rfl), reveals_push, reveals_drop_isReveal, List.nil_append]
    subst given
    rfl
  message := by rw [shownAfter_nil, message]; rfl
  sounds := by rw [shownAfter_nil]; rfl

/-- Other tasks come and go. -/
theorem meanwhile (h : Unveiled text interval id before dts a stage signals) {op : Operation}
    (spares : op.Spares id) (inRange : op.InRange) :
    Unveiled text interval id before dts (a.perform op).1 stage signals where
  built := h.built.perform inRange
  tags := (Grows.perform a op).tags h.tags
  reveals := by
    rw [← h.reveals]
    cases op with
    | tween target f => exact reveals_start a (.tween target f) nofun _ _
    | fadeOut target => exact reveals_start a (.fadeOut target) nofun _ _
    | crossfade name locator => exact reveals_start a (.crossfade name locator false) nofun _ _
    | transition start finish => exact reveals_start a (.transition start finish) nofun _ _
    | flash color => exact reveals_start a (.flash color) nofun _ _
    | shakeObject target ms => exact reveals_start a (.objectShake target ms) nofun _ _
    | shakeScreen ms => exact reveals_start a (.screenShake ms) nofun _ _
    | cancelTarget target => exact a.reveals_cancelTarget target
    | cancel other =>
      refine (a.reveals_cancel other).trans (List.filter_eq_self.mpr fun s hs => ?_)
      rw [h.reveals] at hs
      split at hs
      next =>
        obtain rfl := List.mem_singleton.mp hs
        exact bne_iff_ne.mpr (Ne.symm spares)
      next => contradiction
    | reveal | cancelAll | tick => contradiction
  message := h.message
  sounds := h.sounds

/-- A tick of a reveal in progress shows and sounds the characters that came due, and ends it
with the last. -/
theorem tick_going (h : Unveiled text interval id before dts a stage signals)
    (going : dts = [] ∨ shownAfter text interval dts < Markup.visibleLength text.toList)
    (dt : Nat) :
    Unveiled text interval id before (dts ++ [dt]) (a.tick dt stage).1 (a.tick dt stage).2.1
      (signals ++ (a.tick dt stage).2.2) := by
  have reveals := h.reveals
  rw [if_pos going] at reveals
  refine ⟨h.built.tick dt stage, (Grows.perform a (.tick dt stage)).tags h.tags, ?_, ?_, ?_⟩
  · rw [reveals_tick, reveals, filterMap_cons_toList, Slot.next_revealing]
    by_cases left : shownAfter text interval (dts ++ [dt]) < Markup.visibleLength text.toList
    · rw [if_pos left, if_pos (.inr left)]
      rfl
    · rw [if_neg left, if_neg (by simpa using left)]
      rfl
  · rw [tick_message, reveals, List.flatMap_singleton, h.message, Slot.message_revealing]
  · rw [List.filterMap_append, h.sounds, tick_letters, reveals, List.flatMap_singleton,
      Slot.signals_revealing, soundsTo_append_letters (shownAfter_le_concat ..)]

/-- After its end a tick adds nothing. -/
theorem tick_ended (h : Unveiled text interval id before dts a stage signals)
    (ended : ¬(dts = [] ∨ shownAfter text interval dts < Markup.visibleLength text.toList))
    (dt : Nat) :
    Unveiled text interval id before (dts ++ [dt]) (a.tick dt stage).1 (a.tick dt stage).2.1
      (signals ++ (a.tick dt stage).2.2) := by
  have reveals := h.reveals
  rw [if_neg ended] at reveals
  obtain ⟨-, all⟩ := not_or.mp ended
  have same : shownAfter text interval (dts ++ [dt]) = shownAfter text interval dts := by
    have most := shownAfter_le text interval (dts ++ [dt])
    have grows := shownAfter_le_concat text interval dts dt
    omega
  refine ⟨h.built.tick dt stage, (Grows.perform a (.tick dt stage)).tags h.tags, ?_, ?_, ?_⟩
  · rw [reveals_tick, reveals, same, if_neg (by simpa using all)]
    rfl
  · rw [tick_message, reveals, same]
    exact h.message
  · rw [List.filterMap_append, h.sounds, tick_letters, reveals, same]
    exact List.append_nil _

theorem tick (h : Unveiled text interval id before dts a stage signals) (dt : Nat) :
    Unveiled text interval id before (dts ++ [dt]) (a.tick dt stage).1 (a.tick dt stage).2.1
      (signals ++ (a.tick dt stage).2.2) := by
  by_cases going : dts = [] ∨ shownAfter text interval dts < Markup.visibleLength text.toList
  · exact h.tick_going going dt
  · exact h.tick_ended going dt

/-- No other task has the identity of the reveal. -/
theorem mem_reveals (h : Unveiled text interval id before dts a stage signals) {s : Slot}
    (hs : s ∈ a.slots) (same : s.id = id) : s ∈ a.reveals :=
  List.mem_filter.mpr ⟨hs, Task.isReveal_iff.mpr (h.tags.part s hs same)⟩

/-- A reveal is in progress until all of the text shows, and has a tick at least. -/
theorem isRunning_iff (h : Unveiled text interval id before dts a stage signals) :
    a.isRunning id = true ↔
      dts = [] ∨ shownAfter text interval dts < Markup.visibleLength text.toList := by
  constructor
  · intro running
    obtain ⟨s, hs, same⟩ := List.any_eq_true.mp running
    have reveals := h.mem_reveals hs (beq_iff_eq.mp same)
    rw [h.reveals] at reveals
    by_contra ended
    rw [if_neg ended] at reveals
    contradiction
  · intro going
    have reveals : Slot.revealing text interval id dts ∈ a.reveals := by
      rw [h.reveals, if_pos going]
      exact List.mem_singleton_self _
    exact isRunning_of_mem_reveals reveals

/-- As long as a reveal is in progress its task knows how much shows. -/
theorem task_eq (h : Unveiled text interval id before dts a stage signals) {s : Slot}
    (hs : s ∈ a.slots) (same : s.id = id) :
    s.task = .reveal text.toList (Markup.visibleLength text.toList)
      (shownAfter text interval dts) (max interval 1) dts.sum := by
  have reveals := h.mem_reveals hs same
  rw [h.reveals] at reveals
  split at reveals
  next =>
    obtain rfl := List.mem_singleton.mp reveals
    rfl
  next => contradiction

end Unveiled

theorem Unveiling.unveiled {text before : String} {interval : Nat} {id : TaskId}
    {dts : List Nat} {a : Animator} {stage : Stage} {signals : List Signal}
    (h : Unveiling text interval id before dts a stage signals) :
    Unveiled text interval id before dts a stage signals := by
  induction h with
  | start built given message => exact .start built given message
  | meanwhile _ op spares inRange ih => exact ih.meanwhile spares inRange
  | restage _ message ih => exact { ih with message := message.trans ih.message }
  | tick _ dt ih => exact ih.tick dt

/-- At any moment of its course a reveal has made the message the beginning of the text that
shows `shownAfter` characters, as its task has them counted, or left it alone if none shows;
it has sounded every odd character that shows, in order; and it is in progress until a tick
after which all of the text shows. What shows goes on showing. -/
theorem Unveiling.reveals_all {text before : String} {interval : Nat} {id : TaskId}
    {dts : List Nat} {a : Animator} {stage : Stage} {signals : List Signal}
    (h : Unveiling text interval id before dts a stage signals) :
    let shown := shownAfter text interval dts
    let total := Markup.visibleLength text.toList
    (shown = 0 → stage.message = before) ∧
      (0 < shown → Markup.takeBytes? (Markup.rawOffset text.toList shown) text.toList =
        some stage.message.toList) ∧
      signals.filterMap Signal.letter? = (List.range' 1 shown).filter (· % 2 == 1) ∧
      (a.isRunning id = true ↔ dts = [] ∨ shown < total) ∧
      (∀ s ∈ a.slots, s.id = id →
        s.task = .reveal text.toList total shown (max interval 1) dts.sum) ∧
      shown ≤ total ∧ ∀ dt, shown ≤ shownAfter text interval (dts ++ [dt]) := by
  have unveiled := h.unveiled
  refine ⟨fun none => ?_, fun some => ?_, unveiled.sounds, unveiled.isRunning_iff,
    fun s hs same => unveiled.task_eq hs same, shownAfter_le text interval dts,
    shownAfter_le_concat text interval dts⟩
  · rw [unveiled.message, messageAt, if_pos none]
  · rw [unveiled.message, messageAt, if_neg (Nat.pos_iff_ne_zero.mp some), String.toList_ofList]
    exact Markup.takeBytes?_of_isPrefix (Markup.revealed_isPrefix ..)

/-- A bold line of three characters, one each 16 milliseconds, while the screen begins to
shake: after ticks of 16 and 20 milliseconds two of them show, and the first has sounded. -/
theorem Unveiling.reveals_all_bold :
    ∃ a stage signals, Unveiling "<b>abc</b>" 16 1 "" [16, 20] a stage signals ∧
      stage.message = "<b>ab" ∧ signals.filterMap Signal.letter? = [1] ∧
      a.isRunning 1 = true := by
  have started : Unveiling "<b>abc</b>" 16 1 "" [] (Animator.empty.reveal "<b>abc</b>" 16).1
      .empty [] := .start .empty rfl rfl
  have course : Unveiling "<b>abc</b>" 16 1 "" [16, 20] _ _ _ :=
    ((started.tick 16).meanwhile (.shakeScreen 40) trivial trivial).tick 20
  have shown : shownAfter "<b>abc</b>" 16 [16, 20] = 2 := by decide +kernel
  have more : 2 < Markup.visibleLength "<b>abc</b>".toList := by decide +kernel
  have cut : Markup.takeBytes? (Markup.rawOffset "<b>abc</b>".toList 2) "<b>abc</b>".toList =
      some "<b>ab".toList := by decide +kernel
  have sofar := course.reveals_all
  dsimp only at sofar
  rw [shown, cut] at sofar
  obtain ⟨-, message, sounds, running, -⟩ := sofar
  have same := Option.some.inj (message Nat.two_pos)
  exact ⟨_, _, _, course, (String.toList_inj.mp same).symm, sounds, running.mpr (.inr more)⟩

end VisualNovel
