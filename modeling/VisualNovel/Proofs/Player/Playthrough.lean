import VisualNovel.Proofs.Player.Ahead
import VisualNovel.Proofs.Player.Setup
import VisualNovel.Proofs.Player.Tracking

/-!
# Playing a script to its end

A host ticks a player that runs or pauses, lets it go on after a line and answers its
choices. `Player.goOn` is one such turn, `Player.driven` any number of them, and
`Player.presentedDriven` are the nodes they present. Without jumps they go through what
the script has ahead and come to its end:

> `further_run`: a run presents nodes from what is ahead, and leaves less work unless it
> comes to the end.

> `Player.playthrough`: whatever the answers, the turns come to the end, they have
> presented the nodes that applying the script instantly presents, labels apart, and
> they leave the variables it leaves.
-/

namespace VisualNovel

open Script

namespace Player

variable (p : Player)

/-! ## What a run presents -/

/-- The nodes that at most so many rounds of the loop present. -/
def presentedFor : Nat → Player → List Node
  | 0, _ => []
  | budget + 1, p =>
    p.frame.presenting.toList ++
      match p.step with
      | (q, true) => presentedFor budget q
      | (_, false) => []

/-- The nodes that a run presents. -/
def presentedInRun (p : Player) : List Node := p.presentedFor (max p.setup.player.stepsPerRun 1)

/-- A round at such a node is its presentation. -/
theorem step_of_presenting {n : Node} (h : p.frame.presenting = some n) :
    p.step = p.dispatch n := by
  obtain ⟨here, kind⟩ := Option.filter_eq_some_iff.mp h
  unfold step
  rw [here]
  dsimp only
  cases hk : n.kind with
  | label => simp [hk] at kind
  | goto => simp [hk] at kind
  | conditional => simp [hk] at kind
  | _ => rfl

/-- What at most so many rounds present is taken from what is ahead. Any round leaves
less work unless it comes to the end. -/
theorem further_runFor (budget : Nat) (hs : p.state = .running) (free : JumpFree p.story.pending) :
    Story.Further p.story (p.presentedFor budget) (p.runFor budget).story ∧
      ((p.runFor budget).story.Ended ∨ (p.runFor budget).story.isOpen ∧
        (budget = 0 ∨ (p.runFor budget).story.work < p.story.work)) := by
  induction budget generalizing p with
  | zero => exact ⟨.refl _, .inr ⟨Story.isOpen_of_running hs, .inl rfl⟩⟩
  | succ budget ih =>
    obtain ⟨first, after⟩ := Story.further_round (s := p.story) hs free
    rw [← p.step_story] at first after
    unfold runFor presentedFor
    cases hstep : p.step with
    | mk q goes =>
      rw [hstep] at first after
      cases goes with
      | false =>
        -- The run stops after this round, which has told all there is.
        refine ⟨by rw [List.append_nil]; exact first, ?_⟩
        rcases after with ended | ⟨isOpen, less⟩
        · exact .inl ended
        · exact .inr ⟨isOpen, .inr less⟩
      | true =>
        -- The loop goes on, so the round has not ended the story and left less work.
        have running : q.state = .running := by
          have kept := p.step_state (by rw [hstep])
          rw [hstep] at kept
          exact kept.trans hs
        have less : q.story.work < p.story.work := by
          refine (after.resolve_left fun ended => ?_).2
          exact PlayerState.noConfusion (running.symm.trans ended.closing)
        obtain ⟨others, finally'⟩ := ih q running (first.free free)
        refine ⟨first.trans others, ?_⟩
        rcases finally' with ended | ⟨isOpen, -⟩
        · exact .inl ended
        · exact .inr ⟨isOpen, .inr (Nat.lt_of_le_of_lt others.le less)⟩

/-- What a run presents is taken from what is ahead, and there is less work left unless
the run comes to the end. -/
theorem further_run (hs : p.state = .running) (free : JumpFree p.story.pending) :
    Story.Further p.story p.presentedInRun p.run.story ∧
      (p.run.story.Ended ∨ p.run.story.isOpen ∧ p.run.story.work < p.story.work) := by
  obtain ⟨further, after⟩ := p.further_runFor (max p.setup.player.stepsPerRun 1) hs free
  refine ⟨further, ?_⟩
  rcases after with ended | ⟨isOpen, less⟩
  · exact .inl ended
  · exact .inr ⟨isOpen, less.resolve_left (by omega)⟩

/-! ## One turn of the host -/

/-- The player past the node it waited at, about to run. -/
def left (p : Player) : Player :=
  { p with reveal := none, state := .running, frame := p.frame.advance }

/-- The player where a choice target leads, about to run. -/
def chosen (p : Player) (target : String) : Player :=
  let p := p.withStage { p.session.stage with choices := [] }
  let p := match p.targetIndex target with
    | some i => p.jump i
    | none => p.advanceFrame
  { p with state := .running }

/-- A turn as far as the loop: the pause counted down, the line left, the choice made. -/
def takeOver (target : String) (p : Player) : Player :=
  match p.state with
  | .running | .delaying _ => p.countDown
  | .waitingForClick => (if p.isRevealing then p.advance else p).left
  | .waitingForChoice => p.chosen target
  | _ => p

/-- A turn up to where the loop stops. -/
def playOn (target : String) (p : Player) : Player := (p.takeOver target).resume

/-- The nodes that a turn presents. -/
def presents (target : String) (p : Player) : List Node :=
  if (p.takeOver target).state = .running then (p.takeOver target).presentedInRun else []

/-- One turn of a host that answers a choice with this target: it ticks the player while
it runs or pauses, and lets it go on after a line. -/
def goOn (target : String) (p : Player) : Player :=
  match p.state with
  | .running | .delaying _ => p.tick
  | .waitingForClick => p.proceed
  | .waitingForChoice => p.choose target
  | _ => p

/-- Proceeding leaves the line, completed first if it is still being revealed. -/
theorem proceed_eq_left (hw : p.state = .waitingForClick) :
    p.proceed = (if p.isRevealing then p.advance else p).left.run := by
  unfold proceed
  split
  next hr =>
    obtain ⟨id, hid⟩ := p.advance_of_isRevealing hw hr
    rw [hid]
    exact advance_of_not_isRevealing _ hw rfl
  next hr => exact p.advance_of_not_isRevealing hw (by simpa using hr)

theorem choose_eq_chosen (target : String) (hw : p.state = .waitingForChoice) :
    p.choose target = (p.chosen target).run := by
  unfold choose
  rw [if_pos hw]
  rfl

theorem resume_of_running (h : p.state = .running) : p.resume = p.run := if_pos h

/-- After the loop a turn only animates the stage and, at the end, closes it. -/
theorem goOn_cases (target : String) :
    p.goOn target = p.playOn target ∨
      p.goOn target = (p.playOn target).animate ∧ (p.playOn target).animate.state ≠ .closing ∨
      p.goOn target = (p.playOn target).animate.closeTick ∧ (p.playOn target).state = .closing := by
  have ticked (he : p.playOn target = p.countDown.resume) :
      p.tick = (p.playOn target).animate ∧ (p.playOn target).animate.state ≠ .closing ∨
        p.tick = (p.playOn target).animate.closeTick ∧ (p.playOn target).state = .closing := by
    rw [he]
    unfold tick
    dsimp only
    split
    next closing =>
      exact .inr ⟨rfl, (congrArg Story.state (animate_story _)).symm.trans closing⟩
    next going => exact .inl ⟨rfl, going⟩
  unfold goOn
  cases hs : p.state with
  | running => exact .inr (ticked (by rw [playOn, takeOver, hs]))
  | delaying ms => exact .inr (ticked (by rw [playOn, takeOver, hs]))
  | waitingForClick =>
    refine .inl ((p.proceed_eq_left hs).trans ?_)
    rw [playOn, takeOver, hs]
    exact (resume_of_running _ rfl).symm
  | waitingForChoice =>
    refine .inl ((p.choose_eq_chosen target hs).trans ?_)
    rw [playOn, takeOver, hs]
    exact (resume_of_running _ rfl).symm
  | loading => exact .inl (by simp [playOn, takeOver, resume, hs])
  | closing => exact .inl (by simp [playOn, takeOver, resume, hs])
  | terminated => exact .inl (by simp [playOn, takeOver, resume, hs])

/-- Unless it comes to the end, a turn leaves the story where the loop stops. -/
theorem goOn_story (target : String) (h : (p.playOn target).state ≠ .closing) :
    (p.goOn target).story = (p.playOn target).story := by
  rcases p.goOn_cases target with same | ⟨animated, -⟩ | ⟨-, closing⟩
  · rw [same]
  · rw [animated, animate_story]
  · exact absurd closing h

@[simp] theorem goOn_setup (target : String) : (p.goOn target).setup = p.setup := by
  unfold goOn
  split
  next => exact p.tick_setup
  next => exact p.tick_setup
  next => exact p.proceed_setup
  next => exact p.choose_setup target
  next => rfl

/-! ## Turns go on -/

/-- What is left of a pause. -/
def pause (p : Player) : Nat :=
  match p.state with
  | .delaying remaining => remaining
  | _ => 0

/-- Counting a pause down leaves what is ahead, and ends the pause or makes it shorter. -/
theorem further_countDown {ms : Nat} (hs : p.state = .delaying ms)
    (ticks : 1 ≤ p.setup.player.tickMs) :
    Story.Further p.story [] p.countDown.story ∧
      (p.countDown.state = .running ∨
        p.countDown.story.isOpen ∧ p.countDown.pause < p.pause) := by
  have pending : p.story.pending = p.story.rest := by
    unfold Story.pending
    rw [if_neg (by simp [Story.isWaiting, story, hs])]
  have paused : p.pause = ms := by
    unfold pause
    rw [hs]
  unfold countDown
  rw [hs]
  dsimp only
  split
  next => exact ⟨.of_pending pending.symm (Nat.le_refl _) rfl rfl, .inl rfl⟩
  next longer =>
    refine ⟨.of_pending pending.symm (Nat.le_refl _) rfl rfl, .inr ⟨rfl, ?_⟩⟩
    show ms - p.setup.player.tickMs < p.pause
    omega

/-- Leaving a line leaves what is ahead. -/
theorem further_left (hw : p.state = .waitingForClick) :
    Story.Further p.story [] p.left.story := by
  have pending : p.story.pending = p.story.advanceFrame.rest := by
    unfold Story.pending
    rw [if_pos (by simp [Story.isWaiting, story, hw])]
  exact .of_pending pending.symm (Nat.le_refl _) rfl rfl

/-- A choice that leads nowhere else leaves what is ahead. -/
theorem further_chosen {target : String} (hw : p.state = .waitingForChoice)
    (stays : p.targetIndex target = none) :
    Story.Further p.story [] (p.chosen target).story := by
  have pending : p.story.pending = p.story.advanceFrame.rest := by
    unfold Story.pending
    rw [if_pos (by simp [Story.isWaiting, story, hw])]
  unfold chosen
  dsimp only
  rw [withStage_targetIndex, stays]
  exact .of_pending pending.symm (Nat.le_refl _) rfl rfl

/-- A turn leaves what is ahead to the loop, which goes on unless the player still
pauses, for a shorter time. -/
theorem further_takeOver {target : String} (isOpen : p.story.isOpen)
    (ticks : 1 ≤ p.setup.player.tickMs) (stays : p.targetIndex target = none) :
    Story.Further p.story [] (p.takeOver target).story ∧
      ((p.takeOver target).state = .running ∨
        (p.takeOver target).story.isOpen ∧ (p.takeOver target).pause < p.pause) := by
  unfold takeOver
  cases hs : p.state with
  | running =>
    have still : p.countDown = p := by
      unfold countDown
      rw [hs]
    dsimp only
    rw [still]
    exact ⟨.refl _, .inl hs⟩
  | delaying ms => exact p.further_countDown hs ticks
  | waitingForClick =>
    refine ⟨?_, .inl rfl⟩
    dsimp only
    split
    next hr =>
      obtain ⟨id, hid⟩ := p.advance_of_isRevealing hs hr
      rw [hid]
      exact (p.completeReveal id).further_left hs
    next => exact p.further_left hs
  | waitingForChoice => exact ⟨p.further_chosen hs stays, .inl rfl⟩
  | _ => exact absurd isOpen (by simp [Story.isOpen, story, hs])

/-- What a turn presents is taken from what is ahead. Unless it comes to the end, there
is less work left, or the same and a shorter pause. -/
theorem further_playOn {target : String} (isOpen : p.story.isOpen)
    (free : JumpFree p.story.pending) (ticks : 1 ≤ p.setup.player.tickMs)
    (stays : p.targetIndex target = none) :
    Story.Further p.story (p.presents target) (p.playOn target).story ∧
      ((p.playOn target).story.Ended ∨ (p.playOn target).story.isOpen ∧
        ((p.playOn target).story.work < p.story.work ∨
          (p.playOn target).story.work ≤ p.story.work ∧ (p.playOn target).pause < p.pause)) := by
  obtain ⟨taken, goes⟩ := p.further_takeOver isOpen ticks stays
  unfold presents playOn resume
  split
  next running =>
    obtain ⟨further, after⟩ := (p.takeOver target).further_run running (taken.free free)
    refine ⟨taken.trans further, after.imp_right fun ⟨isOpen, less⟩ => ⟨isOpen, .inl ?_⟩⟩
    exact Nat.lt_of_lt_of_le less taken.le
  next paused =>
    obtain ⟨isOpen, shorter⟩ := goes.resolve_left paused
    exact ⟨taken, .inr ⟨isOpen, .inr ⟨taken.le, shorter⟩⟩⟩

/-! ## Any number of turns -/

/-- So many turns of a host that answers the choices with these targets, one for each
turn. -/
def driven (answers : Nat → String) : Nat → Player → Player
  | 0, p => p
  | turns + 1, p => driven (fun i => answers (i + 1)) turns (p.goOn (answers 0))

/-- The nodes that so many turns present. -/
def presentedDriven (answers : Nat → String) : Nat → Player → List Node
  | 0, _ => []
  | turns + 1, p =>
    p.presents (answers 0) ++
      presentedDriven (fun i => answers (i + 1)) turns (p.goOn (answers 0))

/-- No label of the block is what a star before its name is a target for. -/
def NoTarget (b : Block) (target : String) : Prop :=
  ∀ n ∈ b, n.kind = .label → target ≠ "*" ++ n.label

theorem labelIndex_eq_none {root : Block} {name : String}
    (h : ∀ n ∈ root, n.kind = .label → n.label ≠ name) : labelIndex root name = none := by
  unfold labelIndex
  rw [Option.map_eq_none_iff, List.findRev?_eq_find?_reverse, List.find?_eq_none]
  rintro ⟨n, i⟩ hn
  have member : n ∈ root := (List.mem_zipIdx (List.mem_reverse.mp hn)).2.2 ▸ List.getElem_mem _
  simpa using h n member

theorem targetIndex_eq_none {target : String} (h : NoTarget p.root target) :
    p.targetIndex target = none := by
  unfold targetIndex
  split
  next name starred =>
    refine labelIndex_eq_none fun n member kind named => h n member kind ?_
    rw [named, ← String.toList_inj, starred]
    simp
  next => rfl

/-- At the end the host has nothing to do, and nothing more is presented. -/
theorem playOn_of_closing (target : String) (hs : p.state = .closing) :
    p.playOn target = p ∧ p.presents target = [] := by
  simp [playOn, presents, takeOver, resume, hs]

/-- Turns come to the end, and present all that was ahead. -/
theorem driven_ends (p : Player) (answers : Nat → String) (goes : p.story.Ended ∨ p.story.isOpen)
    (free : JumpFree p.story.pending) (ticks : 1 ≤ p.setup.player.tickMs)
    (stays : ∀ i, NoTarget p.root (answers i)) :
    ∃ turns, ((p.driven answers turns).playOn (answers turns)).story.Ended ∧
      Story.Further p.story (p.presentedDriven answers (turns + 1))
        ((p.driven answers turns).playOn (answers turns)).story := by
  rcases goes with ended | isOpen
  · obtain ⟨still, silent⟩ := p.playOn_of_closing (answers 0) ended.closing
    refine ⟨0, ?_⟩
    show (p.playOn (answers 0)).story.Ended ∧
      Story.Further p.story (p.presents (answers 0) ++ []) (p.playOn (answers 0)).story
    rw [still, silent]
    exact ⟨ended, .refl _⟩
  · obtain ⟨further, after⟩ :=
      p.further_playOn isOpen free ticks (p.targetIndex_eq_none (stays 0))
    by_cases hc : (p.playOn (answers 0)).state = .closing
    · have ended : (p.playOn (answers 0)).story.Ended :=
        after.resolve_right fun h => by simp [Story.isOpen, story, hc] at h
      refine ⟨0, ended, ?_⟩
      show Story.Further p.story (p.presents (answers 0) ++ []) (p.playOn (answers 0)).story
      rw [List.append_nil]
      exact further
    · have same := p.goOn_story (answers 0) hc
      obtain ⟨isOpen, less⟩ := after.resolve_left fun ended => hc ended.closing
      rw [← same] at further isOpen less
      have root : (p.goOn (answers 0)).root = p.root := further.root
      have paused : (p.goOn (answers 0)).pause = (p.playOn (answers 0)).pause := by
        unfold pause
        rw [show (p.goOn (answers 0)).state = (p.playOn (answers 0)).state from
          congrArg Story.state same]
      -- A turn that does no work has counted a pause down.
      have smaller : Prod.Lex (· < ·) (· < ·)
          ((p.goOn (answers 0)).story.work, (p.goOn (answers 0)).pause)
          (p.story.work, p.pause) := by
        rw [Prod.lex_def, paused]
        dsimp only
        omega
      obtain ⟨turns, ended, others⟩ := driven_ends (p.goOn (answers 0))
        (fun i => answers (i + 1)) (.inr isOpen) (further.free free)
        (by rw [goOn_setup]; exact ticks) (fun i => by rw [root]; exact stays (i + 1))
      exact ⟨turns + 1, ended, further.trans others⟩
termination_by (p.story.work, p.pause)
decreasing_by exact smaller

/-! ## A whole script -/

/-- To apply the nodes of a block one by one is to apply the block. -/
theorem foldl_applyInstant (b : Block) :
    b.foldl applyInstant p = { p with session := p.session.replayAll p.setup b } := by
  induction b generalizing p with
  | nil => rfl
  | cons n ns ih =>
    rw [List.foldl_cons, ih]
    unfold applyInstant
    rw [Session.replayAll]

/-- At the start of a script the course of the whole script is ahead. -/
theorem opening_ahead (scenes : Block) :
    (Story.opening scenes 0).pending = scenes ∧
      (Story.opening scenes 0).ahead = courseAll .empty scenes := by
  have all : (Story.opening scenes 0).pending = scenes := by
    rw [Story.pending_of_running rfl]
    simp [Story.rest, Story.opening, Frame.rest]
  refine ⟨all, ?_⟩
  unfold Story.ahead
  rw [all]
  simp [Story.opening, Narration.replayAll, Narration.empty]

/-- Without jumps, and with no choice leading to a label, the turns of a host come to the
end of a script, whatever its answers. They present the nodes that applying the script
instantly to no variables presents, labels apart, each as often and in the same order,
and they leave the variables it leaves. -/
theorem playthrough (p q : Player) (scenes : Block) (answers : Nat → String)
    (free : JumpFree scenes) (ticks : 1 ≤ p.setup.player.tickMs)
    (stays : ∀ i, NoTarget scenes (answers i)) (fresh : q.session.vars = .empty) :
    ∃ turns,
      let last := ((p.start scenes 0).driven answers turns).playOn (answers turns)
      last.state = .closing ∧
        (p.opened scenes 0).presentedInRun ++
            (p.start scenes 0).presentedDriven answers (turns + 1) =
          (q.session.replayedAll q.setup scenes).filter (·.kind ≠ .label) ∧
        last.session.vars = (scenes.foldl applyInstant q).session.vars := by
  obtain ⟨all, ahead⟩ := opening_ahead scenes
  rw [← p.opened_story] at all ahead
  have free : JumpFree (p.opened scenes 0).story.pending := by rwa [all]
  obtain ⟨started, after⟩ := (p.opened scenes 0).further_run rfl free
  rw [← start_eq] at started after
  have root : (p.start scenes 0).root = scenes :=
    started.root.trans (congrArg Story.root (p.opened_story scenes 0))
  obtain ⟨turns, ended, others⟩ := (p.start scenes 0).driven_ends answers
    (after.imp_right And.left) (started.free free) (by rwa [start_setup]) (by rwa [root])
  refine ⟨turns, ended.closing, ?_⟩
  have told := (started.trans others).told
  rw [ahead, ← fresh, ← Session.replayAll_course q.setup, Story.ahead, ended.nothing,
    courseAll, List.append_nil] at told
  -- With nothing ahead at the end, the course of the script is what the turns presented.
  obtain ⟨shown, vars⟩ := Prod.mk.inj told
  rw [foldl_applyInstant]
  exact ⟨shown.symm, vars.symm⟩

/-- A variable set, a branch that it decides and that sets it again, a pause, a choice
and a label after it. -/
def detour : Block :=
  [.directive "@set" ["$way", "=", "long"],
    .conditional ["$way", "==", "long"]
      [.dialogue "" "the long way", .directive "@set" ["$way", "=", "done"]] [],
    .directive "@wait" ["40"], .choice [⟨"home", "*home"⟩], .ofLabel "home", .dialogue "" "home"]

/-- The branch is played once, and the label is passed over in silence. -/
theorem playthrough_detour :
    let p := new ⟨fun _ _ => none, { stepsPerRun := 1 }, {}⟩ .accepting
    JumpFree detour ∧ 1 ≤ p.setup.player.tickMs ∧ NoTarget detour "*away" ∧
      p.session.vars = .empty ∧ ∃ turns,
        let last := ((p.start detour 0).driven (fun _ => "*away") turns).playOn "*away"
        last.state = .closing ∧
          ((p.opened detour 0).presentedInRun ++
            (p.start detour 0).presentedDriven (fun _ => "*away") (turns + 1)).map Node.kind =
            [.variableSet, .text, .variableSet, .wait, .choicePrompt, .text] ∧
          last.session.vars.entries = [("$way", "done")] := by
  intro p
  have free : JumpFree detour := by unfold JumpFree; decide
  have stays : NoTarget detour "*away" := by unfold NoTarget; decide
  obtain ⟨turns, closing, shown, vars⟩ :=
    playthrough p p detour (fun _ => "*away") free (by decide) (fun _ => stays) rfl
  refine ⟨free, by decide, stays, rfl, turns, closing, ?_, ?_⟩
  · rw [shown]
    decide +kernel
  · rw [vars]
    decide +kernel

end Player

end VisualNovel
