import VisualNovel.Play.Pump
import VisualNovel.Proofs.Player.Prompts

/-!
# No answer is lost

A renderer may answer every cue of a batch, but only the last answer is fed back. Nothing is
lost by that as long as one cue of the batch at most asks for an answer. A round takes all
cues and then lets the player ask once, so this holds of every batch of a pump but the first:
that one holds whatever was queued before. After a start it is no exception; where several
calls were made and no cue was taken, it may be one, and then an answer is lost.

> `renderAll_eq`: of all answers to a batch the last one counts.

> `countP_le_of_round`: after a round one cue at most asks for an answer.

> `OneAnswer.of_countP_le`: then an obliging renderer gives one answer at most, and it counts.

> `prompts_once`: every line is presented once, and no answer to a pump is lost.

> `scripted_backlog`: a pump that begins on a backlog loses an answer.
-/

namespace VisualNovel

/-- The renderer answers only to cues that ask for an answer; what else it does is its own
matter. -/
def Renderer.Obliging {σ : Type} (r : Renderer (StateM σ)) : Prop :=
  ∀ c stage t, c.prompts = false → ((r.render c stage).run t).1 = none

/-- Answers from a list, one to each cue that asks and to each prompt. -/
def Renderer.scripted : Renderer (StateM (List Answer)) where
  render c _ :=
    if c.prompts then modifyGet fun script => (script.head?, script.tail) else pure none
  prompt _ _ := modifyGet fun script => (script.head?, script.tail)

theorem Renderer.obliging_scripted : scripted.Obliging := by
  intro c stage t unasked
  unfold scripted
  dsimp only
  rw [unasked]
  rfl

namespace Player

/-! ## A batch of cues -/

section

variable {m : Type → Type} [Monad m]

/-- All that a renderer answers to cues shown one after the other. -/
def answers (r : Renderer m) (stage : Stage) : List Cue → m (List Answer)
  | [] => pure []
  | c :: cs => do
    let a ← r.render c stage
    let others ← answers r stage cs
    pure (a.toList ++ others)

/-- Of all answers to a batch the last one counts. -/
theorem renderAll_eq [LawfulMonad m] (r : Renderer m) (stage : Stage) (answer : Option Answer)
    (cs : List Cue) :
    renderAll r stage answer cs =
      (fun given => given.getLast?.or answer) <$> answers r stage cs := by
  induction cs generalizing answer with
  | nil => simp [renderAll, answers]
  | cons c cs ih =>
    simp only [renderAll, answers, ih, map_bind, bind_pure_comp, Functor.map_map]
    refine bind_congr fun a => ?_
    congr 1
    funext others
    cases a with
    | none => rfl
    | some a => simp [List.getLast?_cons]

/-- The end of a round, with the answer if there is one. -/
def respond (slots : SaveSlots m) (p : Player) : Option Answer → m (Player × Bool)
  | some a => do pure (← feed slots p a, true)
  | none => pure (p.tick, true)

end

variable {σ : Type} {r : Renderer (StateM σ)} {slots : SaveSlots (StateM σ)} {p q : Player}
  {t u : σ} {k : Nat}

/-- There are no more answers than cues that ask for one. -/
theorem length_answers_le (obliging : r.Obliging) (stage : Stage) (cs : List Cue) (t : σ) :
    ((answers r stage cs).run t).1.length ≤ cs.countP Cue.prompts := by
  induction cs generalizing t with
  | nil => exact Nat.le_refl 0
  | cons c cs ih =>
    have first : ((r.render c stage).run t).1.toList.length ≤ if c.prompts then 1 else 0 := by
      cases asks : c.prompts with
      | false => simp [obliging c stage t asks]
      | true => cases ((r.render c stage).run t).1 <;> simp
    have others := ih ((r.render c stage).run t).2
    rw [List.countP_cons]
    show (((r.render c stage).run t).1.toList ++
      ((answers r stage cs).run ((r.render c stage).run t).2).1).length ≤ _
    rw [List.length_append]
    omega

/-- One cue in the queue at most asks for an answer, and shown the queue the renderer gives one
answer at most, the one that counts. -/
def OneAnswer (r : Renderer (StateM σ)) (p : Player) (t : σ) : Prop :=
  p.session.cues.countP Cue.prompts ≤ 1 ∧ ∃ (given : Option Answer) (u : σ),
    (answers r p.session.stage p.session.cues).run t = (given.toList, u) ∧
      (renderAll r p.session.stage none p.session.cues).run t = (given, u)

theorem OneAnswer.of_countP_le (obliging : r.Obliging)
    (atMostOne : p.session.cues.countP Cue.prompts ≤ 1) : OneAnswer r p t := by
  have few := (length_answers_le obliging p.session.stage p.session.cues t).trans atMostOne
  have rendered : (renderAll r p.session.stage none p.session.cues).run t =
      (((answers r p.session.stage p.session.cues).run t).1.getLast?.or none,
        ((answers r p.session.stage p.session.cues).run t).2) := by
    rw [renderAll_eq]
    rfl
  refine ⟨atMostOne, ?_⟩
  generalize (answers r p.session.stage p.session.cues).run t = shown at few rendered ⊢
  obtain ⟨given, u⟩ := shown
  match given with
  | [] => exact ⟨none, u, rfl, rendered⟩
  | [a] => exact ⟨some a, u, rfl, rendered⟩
  | a :: b :: others => exact absurd few (by simp)

/-! ## Calls on an empty queue -/

theorem AsksOnce.countP_le {s : Session} (h : AsksOnce s q) (taken : s.cues = []) :
    q.session.cues.countP Cue.prompts ≤ 1 := by
  obtain ⟨more, queued, asks⟩ := h.queued
  rw [queued, taken, List.nil_append, List.countP_eq_length_filter]
  rcases asks with none | ⟨c, one, -⟩
  · simp [none]
  · simp [one]

theorem countP_start_le (p : Player) (scenes : Block) (index : Nat) :
    (p.start scenes index).session.cues.countP Cue.prompts ≤ 1 := by
  obtain ⟨s, taken, -, asks⟩ := p.asksOnce_start scenes index
  exact asks.countP_le taken

theorem countP_proceed_le (taken : p.session.cues = []) :
    p.proceed.session.cues.countP Cue.prompts ≤ 1 := by
  unfold proceed
  split
  next revealing =>
    by_cases waiting : p.state = .waitingForClick
    · -- The first of the two clicks completes the line, and queues nothing.
      obtain ⟨id, revealed⟩ := p.advance_of_isRevealing waiting revealing
      rw [revealed]
      exact (p.completeReveal id).asksOnce_advance.countP_le taken
    · have same : p.advance = p := if_neg waiting
      rw [same]
      exact p.asksOnce_advance.countP_le taken
  next => exact p.asksOnce_advance.countP_le taken

/-- A session is loaded by restoring it. -/
theorem restore_of_load {path : String} {file : Option (List UInt8)}
    (h : p.load path file = .ok q) : ∃ snapshot, p.restore snapshot = .ok q := by
  rw [load_eq] at h
  split at h
  next => contradiction
  next =>
    split at h
    next => contradiction
    next snapshot _ =>
      refine ⟨snapshot, ?_⟩
      cases restored : p.restore snapshot with
      | error cause =>
        rw [restored] at h
        contradiction
      | ok r =>
        rw [restored] at h
        rw [Except.ok.inj h]

theorem countP_tryLoad_le (taken : p.session.cues = []) (file : Option (List UInt8)) :
    (p.tryLoad file).session.cues.countP Cue.prompts ≤ 1 := by
  cases loaded : p.load "" file with
  | ok q =>
    rw [tryLoad_of_ok loaded]
    obtain ⟨snapshot, restored⟩ := restore_of_load loaded
    obtain ⟨s, none, asks⟩ := asksOnce_restore restored
    exact asks.countP_le none
  | error =>
    rw [tryLoad_of_error loaded, taken]
    exact Nat.zero_le 1

/-- Whatever a player that has queued nothing is fed, it asks for one answer at most. -/
theorem countP_le_of_feed {a : Answer} (taken : p.session.cues = [])
    (h : (feed slots p a).run t = (q, u)) : q.session.cues.countP Cue.prompts ≤ 1 := by
  cases a with
  | proceed =>
    cases h
    exact countP_proceed_le taken
  | choose index =>
    cases h
    exact (p.asksOnce_chooseOption index).countP_le taken
  | exit =>
    cases h
    exact p.asksOnce_dispose.countP_le taken
  | save slot =>
    cases h
    rw [taken]
    exact Nat.zero_le 1
  | load slot =>
    cases h
    exact countP_tryLoad_le taken _

/-! ## Rounds -/

theorem respond_cases (slots : SaveSlots (StateM σ)) (p : Player) (answer : Option Answer)
    (h : (respond slots p answer).run t = ((q, true), u)) :
    q = p.tick ∨ ∃ a v, (feed slots p a).run v = (q, u) := by
  cases answer with
  | none =>
    cases h
    exact .inl rfl
  | some a =>
    cases h
    exact .inr ⟨a, t, rfl⟩

/-- A round that goes on has taken the cues, and then ticked the player or fed it an answer. -/
theorem round_cases (h : (p.round r slots).run t = ((q, true), u)) :
    q = p.takeCues.2.tick ∨ ∃ a v, (feed slots p.takeCues.2 a).run v = (q, u) := by
  unfold round at h
  dsimp only at h
  rw [StateT.run_bind] at h
  generalize (renderAll r _ none _).run t = shown at h
  obtain ⟨answer, v⟩ := shown
  change StateT.run _ v = _ at h
  dsimp only at h
  split at h
  next => cases h
  next =>
    split at h
    next => exact respond_cases slots p.takeCues.2 _ h
    next => exact respond_cases slots p.takeCues.2 answer h

/-- After a round one cue in the queue at most asks for an answer. -/
theorem countP_le_of_round (h : (p.round r slots).run t = ((q, true), u)) :
    q.session.cues.countP Cue.prompts ≤ 1 := by
  rcases round_cases h with rfl | ⟨a, v, fed⟩
  · exact p.takeCues.2.asksOnce_tick.countP_le rfl
  · exact countP_le_of_feed rfl fed

/-! ## Pumping -/

/-- A pump: the player and the surroundings as the round of this number begins. -/
inductive Pumping (r : Renderer (StateM σ)) (slots : SaveSlots (StateM σ)) (p : Player) (t : σ) :
    Nat → Player → σ → Prop
  | begin : Pumping r slots p t 0 p t
  | round {k : Nat} {q q' : Player} {u u' : σ} : Pumping r slots p t k q u →
      (q.round r slots).run u = ((q', true), u') → Pumping r slots p t (k + 1) q' u'

/-- Every batch of a pump gets one answer at most, the first if no more was asked for before. -/
theorem Pumping.oneAnswer (h : Pumping r slots p t k q u) (obliging : r.Obliging)
    (begins : k = 0 → p.session.cues.countP Cue.prompts ≤ 1) : OneAnswer r q u := by
  cases h with
  | begin => exact .of_countP_le obliging (begins rfl)
  | round _ goes => exact .of_countP_le obliging (countP_le_of_round goes)

/-- Every line is presented once, and no answer is lost. The lines among the cues queued since
the last start are the record. A call queues at most one cue that asks for an answer, and then
leaves the player waiting at the node that presents it; so does a start, of all that is then
queued. In a pump with a renderer that answers only to cues that ask, each batch after the first
has at most one such cue, so that the answer that counts is the only one given; so has the first
if it had when the pump began, as it has after a start. -/
theorem prompts_once :
    (∀ (p : Player) (log : List Cue), Logged p log →
      log.filterMap Cue.record? = p.session.stage.history) ∧
    (∀ p q : Player, Entry p q → ∃ more, q.session.cues = p.session.cues ++ more ∧
      (more.filter Cue.prompts = [] ∨ ∃ c, more.filter Cue.prompts = [c] ∧ q.Awaits c)) ∧
    (∀ (p : Player) (scenes : Block) (index : Nat), let q := p.start scenes index
      q.session.cues.filter Cue.prompts = [] ∨
        ∃ c, q.session.cues.filter Cue.prompts = [c] ∧ q.Awaits c) ∧
    ∀ (σ : Type) (r : Renderer (StateM σ)) (slots : SaveSlots (StateM σ)), r.Obliging →
      ∀ (p q : Player) (t u : σ) (k : Nat), Pumping r slots p t k q u →
        (k = 0 → p.session.cues.countP Cue.prompts ≤ 1 ∨
          ∃ p₀ scenes index, p = Player.start p₀ scenes index) → OneAnswer r q u := by
  refine ⟨fun p log logged => logged.history, fun p q entry => entry.asksOnce.queued,
    fun p scenes index => ?_, fun σ r slots obliging p q t u k pump begins => ?_⟩
  · obtain ⟨s, taken, -, asks⟩ := p.asksOnce_start scenes index
    obtain ⟨more, queued, awaits⟩ := asks.queued
    rw [taken, List.nil_append] at queued
    dsimp only
    rwa [queued]
  · refine pump.oneAnswer obliging fun first => ?_
    rcases begins first with atMostOne | ⟨p₀, scenes, index, rfl⟩
    · exact atMostOne
    · exact p₀.countP_start_le scenes index

/-- Two lines. -/
def twoLines : Block := [.dialogue "" "first", .dialogue "" "second"]

/-- A player of the two lines. -/
def ofTwoLines : Player := (new ⟨fun _ _ => none, {}, {}⟩ .accepting).start twoLines 0

/-- Slots that are never written. -/
def noSlots : SaveSlots (StateM (List Answer)) := ⟨fun _ _ => pure (), fun _ => pure none⟩

/-- Two clicks leave the first line and queue the second beside it. -/
theorem ofTwoLines_logged :
    ofTwoLines.advance.session.cues = [.showText "" "first"] ∧
      ofTwoLines.advance.advance.session.cues = [.showText "" "first", .showText "" "second"] ∧
      Logged ofTwoLines.advance.advance [.showText "" "first", .showText "" "second"] := by
  have first : ofTwoLines.session.cues = [.showText "" "first"] := by decide +kernel
  have completed : ofTwoLines.advance.session.cues = [.showText "" "first"] := by decide +kernel
  have left : ofTwoLines.advance.advance.session.cues =
      [.showText "" "first", .showText "" "second"] := by decide +kernel
  have logged := (((Logged.new ⟨fun _ _ => none, {}, {}⟩ .accepting).start twoLines 0).call
    .advance).call .advance
  change Logged ofTwoLines.advance.advance (ofTwoLines.session.cues ++
    ofTwoLines.advance.session.cues.drop ofTwoLines.session.cues.length ++
      ofTwoLines.advance.advance.session.cues.drop ofTwoLines.advance.session.cues.length) at logged
  rw [first, completed, left] at logged
  exact ⟨completed, left, logged⟩

/-- The host sees both lines and waits at the second; a pump that is answered to go on and then
to end takes them one by one. -/
theorem prompts_once_ofTwoLines :
    ofTwoLines.advance.advance.session.stage.history = [⟨"", "first"⟩, ⟨"", "second"⟩] ∧
      ofTwoLines.advance.advance.Awaits (.showText "" "second") ∧
      Pumping .scripted noSlots ofTwoLines [.proceed, .exit] 1 ofTwoLines.takeCues.2.proceed
        [.exit] ∧
      OneAnswer .scripted ofTwoLines.takeCues.2.proceed [.exit] := by
  obtain ⟨completed, left, logged⟩ := ofTwoLines_logged
  obtain ⟨record, call, -, pump⟩ := prompts_once
  have pumping : Pumping .scripted noSlots ofTwoLines [.proceed, .exit] 1
      ofTwoLines.takeCues.2.proceed [.exit] := .round .begin rfl
  refine ⟨(record _ _ logged).symm, ?_, pumping,
    pump _ _ noSlots Renderer.obliging_scripted _ _ _ _ _ pumping nofun⟩
  obtain ⟨more, queued, asked⟩ := call _ _ (.advance (p := ofTwoLines.advance))
  rw [completed, left] at queued
  obtain ⟨-, rfl⟩ := List.cons.inj queued
  rcases asked with none | ⟨c, one, awaits⟩
  · exact absurd none (by decide)
  · obtain ⟨rfl, -⟩ := List.cons.inj one
    exact awaits

/-- A pump that begins where both lines are queued takes both at once. The first is answered to
end the session, the second to go on, and it goes on. -/
theorem scripted_backlog :
    Logged ofTwoLines.advance.advance [.showText "" "first", .showText "" "second"] ∧
      Renderer.scripted.Obliging ∧
      Pumping .scripted noSlots ofTwoLines.advance.advance [.exit, .proceed] 0
        ofTwoLines.advance.advance [.exit, .proceed] ∧
      ofTwoLines.advance.advance.session.cues.countP Cue.prompts = 2 ∧
      (answers .scripted ofTwoLines.advance.advance.session.stage
        ofTwoLines.advance.advance.session.cues).run [.exit, .proceed] =
          ([.exit, .proceed], []) ∧
      (renderAll .scripted ofTwoLines.advance.advance.session.stage none
        ofTwoLines.advance.advance.session.cues).run [.exit, .proceed] = (some .proceed, []) ∧
      (ofTwoLines.advance.advance.round .scripted noSlots).run [.exit, .proceed] =
        ((ofTwoLines.advance.advance.takeCues.2.proceed, true), []) := by
  obtain ⟨-, left, logged⟩ := ofTwoLines_logged
  rw [left]
  exact ⟨logged, Renderer.obliging_scripted, .begin, rfl, rfl, rfl, rfl⟩

end Player

end VisualNovel
