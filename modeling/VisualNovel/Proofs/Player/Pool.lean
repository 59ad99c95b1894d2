import VisualNovel.Proofs.Player.Events
import VisualNovel.Proofs.Player.Presence
import VisualNovel.Proofs.Player.Signals

/-!
# The sample for letters

The sample that sounds with the letters of a reveal is loaded at each start and given back before
it is loaded anew, and at the end. The sink does not say whether it holds one; the player keeps a
flag instead, and a load that fails leaves the flag down. `AudioSink.Held` reads off the calls
themselves whether a sample is held, and `Session.Pooled` says that the flag agrees with them.

> `Session.Pooled.events`: whatever is played, the flag stays and goes on to agree.

> `Player.pool_in_order`: the sample is loaded, played from and given back in order.
-/

namespace VisualNovel

open Relation

/-- Whether a sample is held after a call, if one was or was not before. -/
def AudioCall.Leaves (succeeds : Bool) (held : Prop) : AudioCall → Prop
  | .loadPool .. => succeeds = true
  | .releasePool => False
  | .play .. | .stop | .playFromPool _ => held

/-- A sample is loaded only while none is held, and given back or played from only while one
is. -/
def AudioCall.InOrder (held : Prop) : AudioCall → Prop
  | .loadPool .. => ¬held
  | .releasePool | .playFromPool _ => held
  | .play .. | .stop => True

/-- Whether a call loads the sample or gives it back. -/
def AudioCall.turns : AudioCall → Bool
  | .loadPool .. | .releasePool => true
  | .play .. | .stop | .playFromPool _ => false

namespace AudioSink

variable {accepts : Nat → AudioCall → Bool} {calls : List AudioCall} {c : AudioCall}

/-- A sample is held after these calls: the last load succeeded, and the sample was not given back
after it. -/
def Held (accepts : Nat → AudioCall → Bool) (calls : List AudioCall) : Prop :=
  ∃ before locator count after, calls = before ++ .loadPool locator count :: after ∧
    accepts before.length (.loadPool locator count) = true ∧ ∀ c ∈ after, c.turns = false

/-- Before any call nothing is held. -/
theorem not_held_nil : ¬Held accepts [] := by
  rintro ⟨before, locator, count, after, split, -⟩
  simp at split

/-- A call is the last one, or it was made before the last one. -/
theorem split_concat {before after : List AudioCall} {d : AudioCall}
    (h : calls ++ [c] = before ++ d :: after) :
    before = calls ∧ d = c ∧ after = [] ∨
      ∃ rest, after = rest ++ [c] ∧ calls = before ++ d :: rest := by
  rcases List.eq_nil_or_concat' after with rfl | ⟨rest, last, rfl⟩
  · obtain ⟨same, last⟩ := List.append_inj' h rfl
    exact .inl ⟨same.symm, (List.cons.inj last).1.symm, rfl⟩
  · rw [← List.cons_append, ← List.append_assoc] at h
    obtain ⟨same, last⟩ := List.append_inj' h rfl
    exact .inr ⟨rest, by rw [last], same⟩

/-- Whether a sample is held is a matter of the last call and of what was held before it. -/
theorem held_concat :
    Held accepts (calls ++ [c]) ↔ c.Leaves (accepts calls.length c) (Held accepts calls) := by
  constructor
  · rintro ⟨before, locator, count, after, split, loaded, kept⟩
    rcases split_concat split with ⟨rfl, rfl, rfl⟩ | ⟨rest, rfl, rfl⟩
    · exact loaded
    · obtain ⟨kept, last⟩ := List.forall_mem_append.mp kept
      have held : Held accepts (before ++ .loadPool locator count :: rest) :=
        ⟨before, locator, count, rest, rfl, loaded, kept⟩
      have stays : c.turns = false := last c (List.mem_singleton_self c)
      cases c with
      | loadPool | releasePool => contradiction
      | _ => exact held
  · intro leaves
    have extend (held : Held accepts calls) (stays : c.turns = false) :
        Held accepts (calls ++ [c]) := by
      obtain ⟨before, locator, count, after, rfl, loaded, kept⟩ := held
      refine ⟨before, locator, count, after ++ [c], by simp, loaded, ?_⟩
      exact List.forall_mem_append.mpr ⟨kept, List.forall_mem_singleton.mpr stays⟩
    cases c with
    | loadPool locator count => exact ⟨calls, locator, count, [], rfl, leaves, nofun⟩
    | releasePool => exact leaves.elim
    | _ => exact extend leaves rfl

end AudioSink

namespace Session

open AudioSink (Held)

variable {setup : Setup} {instant : Bool} {accepts : Nat → AudioCall → Bool} {loaded : Bool}
variable {s t : Session}

/-- The calls of the sink so far were in order, and the flag says whether they leave a sample. -/
structure Pooled (accepts : Nat → AudioCall → Bool) (loaded : Bool) (s : Session) : Prop where
  answers : s.audio.accepts = accepts
  served : s.audio.served = s.audio.calls.length
  flag : s.poolLoaded = loaded
  held : loaded = true ↔ Held accepts s.audio.calls
  inOrder : ∀ before c after, s.audio.calls = before ++ c :: after →
    c.InOrder (Held accepts before)

namespace Pooled

/-- Whether the flag agrees depends on the calls and on the flag. -/
theorem of_same (h : s.Pooled accepts loaded) (audio : t.audio = s.audio)
    (flag : t.poolLoaded = s.poolLoaded) : t.Pooled accepts loaded where
  answers := audio ▸ h.answers
  served := audio ▸ h.served
  flag := flag.trans h.flag
  held := audio ▸ h.held
  inOrder := audio ▸ h.inOrder

/-- A call may be made that is in order, if the flag is set to what it leaves. -/
theorem call {c : AudioCall} {left : Bool} (h : s.Pooled accepts loaded)
    (order : c.InOrder (loaded = true)) (audio : t.audio = s.audio.call c)
    (flag : t.poolLoaded = left)
    (leaves : left = true ↔ c.Leaves (s.audio.answer c) (loaded = true)) :
    t.Pooled accepts left where
  answers := by rw [audio]; exact h.answers
  served := by rw [audio]; simp [AudioSink.call, h.served]
  flag := flag
  held := by
    have answer : s.audio.answer c = accepts s.audio.calls.length c := by
      unfold AudioSink.answer
      rw [h.answers, h.served]
    rw [leaves, audio, answer, propext h.held]
    exact AudioSink.held_concat.symm
  inOrder := by
    intro before d after split
    rw [audio] at split
    -- Only the last call is new; those before it had the same calls before them.
    rcases AudioSink.split_concat split with ⟨rfl, rfl, -⟩ | ⟨rest, -, earlier⟩
    · exact propext h.held ▸ order
    · exact h.inOrder before d rest earlier

/-- A sound that is no letter is always in order. -/
theorem sound {c : AudioCall} (h : s.Pooled accepts loaded) (order : ∀ held, c.InOrder held)
    (leaves : ∀ b held, c.Leaves b held ↔ held) : (s.call c).Pooled accepts loaded :=
  h.call (order _) rfl h.flag (leaves ..).symm

/-- Letters sound while the flag is up. -/
theorem letters {calls : List AudioCall} (h : s.Pooled accepts loaded)
    (letters : ∀ c ∈ calls, loaded = true ∧ ∃ volume, c = .playFromPool volume) :
    Pooled accepts loaded { s with audio := s.audio.callAll calls } := by
  induction calls generalizing s with
  | nil => exact h
  | cons c calls ih =>
    obtain ⟨⟨up, volume, rfl⟩, others⟩ := List.forall_mem_cons.mp letters
    have order : (AudioCall.playFromPool volume).InOrder (loaded = true) := up
    have first : (s.call (.playFromPool volume)).Pooled accepts loaded :=
      h.call order rfl h.flag Iff.rfl
    exact ih first others

/-- No act of a node loads the sample or gives it back. -/
theorem act (h : s.Pooled accepts loaded) (act : Act setup instant s t) :
    t.Pooled accepts loaded := by
  cases act with
  | music | sound | silence => exact h.sound (fun _ => trivial) fun _ _ => Iff.rfl
  | _ => exact h.of_same rfl rfl

/-- Of what happens while a story plays only a tick plays from the sample, and looks at the flag
first. -/
theorem event (h : s.Pooled accepts loaded) (event : Event setup s t) :
    t.Pooled accepts loaded := by
  cases event with
  | act act => exact h.act act
  | tick p _ =>
    rw [p.animate_session]
    refine (h.letters fun c hc => ?_).of_same rfl rfl
    obtain ⟨signal, -, called⟩ := List.mem_filterMap.mp hc
    -- The player looks at its flag for every letter, and no letter lowers it.
    rw [h.flag] at called
    cases signal with
    | backgroundSwapped => contradiction
    | letter index =>
      obtain ⟨up, sounds⟩ := Option.ite_none_right_eq_some.mp called
      exact ⟨up, _, (Option.some.inj sounds).symm⟩
  | cancel | cover | clear | taken => exact h.of_same rfl rfl

/-- Whatever happens to a session while its story plays, the flag stays as it is. -/
theorem events (h : s.Pooled accepts loaded) (events : Events setup s t) :
    t.Pooled accepts loaded := by
  induction events with
  | refl => exact h
  | tail _ event ih => exact ih.event event

end Pooled

end Session

namespace Player

open AudioSink (Held)
open Attempt

variable {setup : Setup} {accepts : Nat → AudioCall → Bool} {loaded : Bool}
variable {p q : Player} {ns : List Node}

/-- What a host may ask of a player that exists. A session that cannot be restored leaves a player
as well. -/
inductive Request (p : Player) : Player → Prop
  | entry {q : Player} (entry : Entry p q) : Request p q
  | restore (s : Snapshot) : Request p ((resuming s).left p)
  | takeCues : Request p p.takeCues.2

/-- The players that a host can come to, in whatever order it starts scripts, drives them and
restores sessions of any kind, from a new one on whose sink gives these answers. -/
inductive Arrived (setup : Setup) (accepts : Nat → AudioCall → Bool) : Player → Prop
  | new : Arrived setup accepts (.new setup ⟨[], 0, accepts⟩)
  | start {p : Player} (before : Arrived setup accepts p) (scenes : Block) (index : Nat) :
      Arrived setup accepts (p.start scenes index)
  | request {p q : Player} (before : Arrived setup accepts p) (request : Request p q) :
      Arrived setup accepts q

/-- The identities a player keeps are right, and so are its calls and its flag. -/
structure Pooled (accepts : Nat → AudioCall → Bool) (loaded : Bool) (p : Player) : Prop where
  tagged : p.Tagged
  session : p.session.Pooled accepts loaded

/-! ## Loading and giving back -/

/-- The sample is given back if one is held, and then none is. -/
theorem pooled_releasePool (h : p.session.Pooled accepts loaded) :
    p.releasePool.session.Pooled accepts false := by
  unfold releasePool
  split
  next up =>
    have order : AudioCall.releasePool.InOrder (loaded = true) := h.flag ▸ up
    exact h.call order rfl rfl (by simp [AudioCall.Leaves])
  next down =>
    obtain rfl : loaded = false := by simpa [h.flag] using down
    exact h

/-- Loading gives back the old sample first, and raises the flag only if it succeeds. -/
theorem pooled_loadPool (h : p.session.Pooled accepts loaded) :
    ∃ left, p.loadPool.session.Pooled accepts left := by
  have released := pooled_releasePool h
  unfold loadPool
  dsimp only
  split
  next => exact ⟨false, released⟩
  next locator _ =>
    let call := AudioCall.loadPool locator p.releasePool.setup.sound.letterPoolSize
    have order : call.InOrder (false = true) := Bool.false_ne_true
    split
    next succeeds => exact ⟨true, released.call order rfl rfl (iff_of_true rfl succeeds)⟩
    next fails =>
      exact ⟨false, released.call order rfl released.flag (iff_of_false Bool.false_ne_true fails)⟩

/-! ## Calls of a host -/

/-- Whatever is played, the flag stays and goes on to agree. -/
theorem Plays.pooled (h : Plays p ns q) (before : p.Pooled accepts loaded) :
    q.Pooled accepts loaded where
  tagged := (h.performs before.tagged).tagged
  session := before.session.events (h.events before.tagged)

/-- A start loads the sample once, before the loop runs. -/
theorem pooled_start (h : p.session.Pooled accepts loaded) (scenes : Block) (index : Nat) :
    ∃ left, (p.start scenes index).Pooled accepts left := by
  have emptied : Session.Pooled accepts loaded { p.session with
      stage := .empty, vars := .empty, cues := [], animator := p.session.animator.cancelAll } :=
    h.of_same rfl rfl
  obtain ⟨left, fresh⟩ : ∃ left, p.fresh.session.Pooled accepts left := pooled_loadPool emptied
  have opened : (p.opened scenes index).Pooled accepts left :=
    ⟨p.opened_tagged scenes index, fresh.events (p.opened_events scenes index)⟩
  exact ⟨left, (plays_run (p := p.opened scenes index) rfl).pooled opened⟩

/-- When a session is disposed of nothing is held. -/
theorem pooled_dispose (h : p.Pooled accepts loaded) : p.dispose.Pooled accepts false where
  tagged := h.tagged.steady_dispose.tagged
  session := by
    have stopped : ((p.withAnimator p.session.animator.cancelAll).call .stop).session.Pooled
        accepts loaded :=
      Session.Pooled.sound (h.session.of_same rfl rfl) (fun _ => trivial) fun _ _ => Iff.rfl
    exact (pooled_releasePool stopped).of_same rfl rfl

/-- A session that is taken up takes over sink and flag. -/
theorem takenUp_audio {s : Snapshot} (h : p.takenUp s = .ok q) :
    q.session.audio = p.session.audio ∧ q.session.poolLoaded = p.session.poolLoaded := by
  unfold takenUp at h
  dsimp only [bind, Except.bind] at h
  split at h
  next => contradiction
  next =>
    split at h
    next => contradiction
    next =>
      cases h
      exact ⟨rfl, rfl⟩

/-- Restoring, successful or not, leaves the sample alone. -/
theorem pooled_restore (h : p.Pooled accepts loaded) (s : Snapshot) :
    ((resuming s).left p).Pooled accepts loaded := by
  cases outcome : p.restore s with
  | error =>
    rw [(atomic_resuming s).left_of_error outcome]
    exact h
  | ok r =>
    rw [left_of_ok outcome]
    obtain ⟨q, taken, resumed⟩ := restore_cases outcome
    obtain ⟨audio, flag⟩ := takenUp_audio taken
    have begun : q.Pooled accepts loaded :=
      ⟨(Begun.takenUp taken).tagged, h.session.of_same audio flag⟩
    rcases resumed with ⟨running, rfl⟩ | rfl
    · exact (plays_run running).pooled begun
    · exact begun

/-- A request loads no sample, and only the end of the session gives it back. -/
theorem Request.pooled (h : Request p q) (before : p.Pooled accepts loaded) :
    q.Pooled accepts loaded ∨ q.Pooled accepts false := by
  cases h with
  | entry entry =>
    rcases entry.plays_or with ⟨ns, plays⟩ | rfl
    · exact .inl (plays.pooled before)
    · exact .inr (pooled_dispose before)
  | restore s => exact .inl (pooled_restore before s)
  | takeCues => exact .inl ((Plays.of_beat (.takeCues p)).pooled before)

/-- However a host came to a player, its flag agrees with its calls. -/
theorem Arrived.pooled (h : Arrived setup accepts p) : ∃ loaded, p.Pooled accepts loaded := by
  induction h with
  | new =>
    have steady : (Player.new setup ⟨[], 0, accepts⟩).Steady := steady_of_silent rfl rfl nofun
    refine ⟨false, steady.tagged, rfl, rfl, rfl, ?_, ?_⟩
    · exact iff_of_false Bool.false_ne_true AudioSink.not_held_nil
    · intro before c after split
      exact absurd (show [] = before ++ c :: after from split) (by simp)
  | start _ scenes index ih =>
    obtain ⟨loaded, before⟩ := ih
    exact pooled_start before.session scenes index
  | request _ request ih =>
    obtain ⟨loaded, before⟩ := ih
    exact (request.pooled before).elim (fun h => ⟨loaded, h⟩) fun h => ⟨false, h⟩

/-- However a host drives a player, and whichever calls of the sink fail, a sample is loaded only
while none is held, and given back or played from only while one is; and once a session was
disposed of, none is held until a script is started. -/
theorem pool_in_order (h : Arrived setup accepts p) :
    (∀ before c after, p.session.audio.calls = before ++ c :: after →
      c.InOrder (Held accepts before)) ∧
    ∀ q, ReflTransGen Request p.dispose q → ¬Held accepts q.session.audio.calls := by
  obtain ⟨loaded, pooled⟩ := h.pooled
  refine ⟨pooled.session.inOrder, fun q requests => ?_⟩
  have released : q.Pooled accepts false := by
    induction requests with
    | refl => exact pooled_dispose pooled
    | tail _ request ih => exact (request.pooled ih).elim id id
  exact fun held => Bool.false_ne_true (released.session.held.mpr held)

/-- A script is started anew while its line is being revealed, and this time the sample cannot be
loaded: the old one was given back before, no letter sounds any more, and there is nothing to give
back at the end. -/
theorem pool_in_order_restart :
    let accepts : Nat → AudioCall → Bool := fun n _ => n != 3
    let load := AudioCall.loadPool "system/letter_se" 20
    let begun := (new ⟨.any, {}, {}⟩ ⟨[], 0, accepts⟩).start [.dialogue "" "hello"] 0
    let p := (begun.tick.start [.dialogue "" "hello"] 0).tick
    p.session.audio.calls = [load, .playFromPool 60, .releasePool, load] ∧
      Held accepts [load] ∧ ¬Held accepts [load, .playFromPool 60, .releasePool] ∧
      ¬Held accepts p.dispose.session.audio.calls := by
  intro accepts load begun p
  have arrived : Arrived ⟨.any, {}, {}⟩ accepts p :=
    (((Arrived.new.start [.dialogue "" "hello"] 0).request (.entry .tick)).start
      [.dialogue "" "hello"] 0).request (.entry .tick)
  have calls : p.session.audio.calls = [load, .playFromPool 60, .releasePool, load] := by
    decide +kernel
  obtain ⟨inOrder, disposed⟩ := pool_in_order arrived
  exact ⟨calls, inOrder [load] (.playFromPool 60) [.releasePool, load] calls,
    inOrder [load, .playFromPool 60, .releasePool] load [] calls, disposed _ .refl⟩

end Player

end VisualNovel
