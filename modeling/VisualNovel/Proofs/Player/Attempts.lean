import VisualNovel.Play.Pump

/-!
# Resuming a session is all or nothing

A session is resumed in place. Its tasks are cancelled, its stage, its variables and its frames
are replaced one after the other, and what was there is gone. Were this to fail halfway, neither
the old session nor the saved one could go on.

It fails before it begins, if it fails: the places are looked up first, which changes nothing,
and nothing that comes after the last look-up can fail (`atomic_resuming`). So the places alone
decide whether it fails (`takenUp_error_iff`).

> `restore_eq`: what a session is that has been resumed.

> `restore_atomic`: a session that could not be resumed or loaded has not begun to be.
-/

namespace VisualNovel

/-- A saved place that a script does not have: nothing is found at its path, or the block found
there ends before it. -/
def FrameSnapshot.Misfits (root : Block) (place : FrameSnapshot) : Prop :=
  Script.resolve root place.path = none ∨
    ∃ block, Script.resolve root place.path = some block ∧ block.length < place.pc

/-- Going through a list fails exactly if one of its elements fails. -/
theorem mapM_error_iff {ε α β : Type} {f : α → Except ε β} {xs : List α} :
    (∃ e, xs.mapM f = .error e) ↔ ∃ x ∈ xs, ∃ e, f x = .error e := by
  induction xs with
  | nil => exact iff_of_false nofun nofun
  | cons x xs ih =>
    simp only [List.mapM_cons, List.mem_cons, exists_eq_or_imp, ← ih]
    cases f x with
    | error cause => exact iff_of_true ⟨cause, rfl⟩ (.inl ⟨cause, rfl⟩)
    | ok =>
      cases xs.mapM f with
      | error cause => exact iff_of_true ⟨cause, rfl⟩ (.inr ⟨cause, rfl⟩)
      | ok => exact iff_of_false nofun (by simp)

namespace Player

namespace Attempt

variable {ε ε' α β : Type} {p q : Player}

/-! ## Runs of an attempt -/

/-- The second part of an attempt is run on the player that the first one leaves, unless that
fails. -/
theorem run_bind (x : Attempt ε α) (f : α → Attempt ε β) (p : Player) :
    (x >>= f).run p = match x.run p with
      | (.ok a, q) => (f a).run q
      | (.error e, q) => (.error e, q) := by
  show ExceptT.bindCont f (x.run p).1 (x.run p).2 = _
  cases h : x.run p with
  | mk result q =>
    cases result with
    | ok => rfl
    | error => rfl

theorem run_get (p : Player) : (get : Attempt ε Player).run p = (.ok p, p) := rfl

theorem run_lift (x : Except ε α) (p : Player) : (liftM x : Attempt ε α).run p = (x, p) := rfl

/-- Telling a failure in other words does not touch the player. -/
theorem run_adapt (f : ε → ε') (x : Attempt ε α) (p : Player) :
    (ExceptT.adapt f x).run p = ((x.run p).1.mapError f, (x.run p).2) := rfl

/-! ## Attempts of two parts -/

/-- An attempt that only looks at the player. -/
def Reads (x : Attempt ε α) : Prop := ∀ p, (x.run p).2 = p

/-- An attempt that cannot fail. -/
def Succeeds (x : Attempt ε α) : Prop := ∀ p, ∃ a q, x.run p = (.ok a, q)

/-- An attempt that leaves the player as it was when it fails. -/
def Atomic (x : Attempt ε α) : Prop := ∀ p e, (x.run p).1 = .error e → (x.run p).2 = p

/-- Asking for the player looks at it only. -/
theorem reads_get : Reads (get : Attempt ε Player) := fun _ => rfl

/-- What is computed apart from the player looks at it only. -/
theorem reads_lift (x : Except ε α) : Reads (liftM x : Attempt ε α) := fun _ => rfl

/-- Changing the player cannot fail. -/
theorem succeeds_modify (f : Player → Player) : Succeeds (modify f : Attempt ε PUnit) :=
  fun p => ⟨⟨⟩, f p, rfl⟩

/-- Two parts that cannot fail cannot fail together. -/
theorem Succeeds.bind {x : Attempt ε α} {f : α → Attempt ε β} (h : x.Succeeds)
    (next : ∀ a, (f a).Succeeds) : (x >>= f).Succeeds := by
  intro p
  obtain ⟨a, q, first⟩ := h p
  obtain ⟨b, r, second⟩ := next a q
  refine ⟨b, r, ?_⟩
  rw [run_bind, first]
  exact second

/-- An attempt that only looks leaves the player, so also when it fails. -/
theorem Reads.atomic {x : Attempt ε α} (h : x.Reads) : x.Atomic := fun p _ _ => h p

/-- An attempt that cannot fail has no failure to leave anything behind. -/
theorem Succeeds.atomic {x : Attempt ε α} (h : x.Succeeds) : x.Atomic := by
  intro p e failed
  obtain ⟨a, q, done⟩ := h p
  rw [done] at failed
  contradiction

/-- A look-up may come before whatever is atomic. -/
theorem Reads.bind {x : Attempt ε α} {f : α → Attempt ε β} (h : x.Reads)
    (next : ∀ a, (f a).Atomic) : (x >>= f).Atomic := by
  intro p e failed
  have same : (x.run p).2 = p := h p
  rw [run_bind] at failed ⊢
  cases looked : x.run p with
  | mk result q =>
    rw [looked] at failed same
    obtain rfl : q = p := same
    -- The look-up fails and leaves the player, or leaves the player to what comes next.
    cases result with
    | ok a => exact next a q e failed
    | error => rfl

/-- Telling a failure in other words keeps an attempt atomic. -/
theorem Atomic.adapt {x : Attempt ε α} (h : x.Atomic) (f : ε → ε') :
    Atomic (ExceptT.adapt f x : Attempt ε' α) := by
  intro p e failed
  rw [run_adapt] at failed ⊢
  cases result : (x.run p).1 with
  | ok a =>
    rw [result] at failed
    contradiction
  | error cause => exact h p cause result

variable {x : Attempt ε Unit} {e : ε}

/-- An attempt answers the failure it ran into. -/
theorem outcome_eq_error_iff : x.outcome p = .error e ↔ (x.run p).1 = .error e := by
  unfold outcome
  cases x.run p with
  | mk result q =>
    cases result with
    | ok => simp
    | error => simp

/-- An atomic attempt that failed has left the player. -/
theorem Atomic.left_of_error (h : x.Atomic) (failed : x.outcome p = .error e) : x.left p = p :=
  h p e (outcome_eq_error_iff.mp failed)

/-- An attempt that succeeded has left the player it answers. -/
theorem left_of_ok (done : x.outcome p = .ok q) : x.left p = q := by
  unfold outcome at done
  unfold left
  cases ran : x.run p with
  | mk result r =>
    rw [ran] at done
    cases result with
    | ok => exact Except.ok.inj done
    | error => contradiction

/-- The answer is the same in the other words. -/
theorem outcome_adapt (f : ε → ε') (x : Attempt ε Unit) (p : Player) :
    outcome (ExceptT.adapt f x : Attempt ε' Unit) p = (x.outcome p).mapError f := by
  unfold outcome
  rw [run_adapt]
  cases x.run p with
  | mk result q =>
    cases result with
    | ok => rfl
    | error => rfl

end Attempt

open Attempt

variable {p q r : Player}

/-! ## Resuming -/

/-- The player as it takes up a saved session, before its loop goes on. -/
def takenUp (p : Player) (s : Snapshot) : Except RestoreError Player := do
  let frame ← resolveFrame p.root s.frame
  let stack ← s.stack.mapM (resolveFrame p.root)
  let stage := s.stage.settle
  let stage := if waitsOnText s frame then { stage with history := stage.history.dropLast }
    else stage
  let state := match s.state with
    | .delaying remaining => .delaying remaining
    | _ => .running
  pure { p with
    session := { p.session with
      animator := p.session.animator.cancelAll
      stage := stage, vars := s.vars, cues := [] }
    frame := frame, stack := stack.reverse, state := state
    reveal := none, fadeIn := none, closing := none, fadeInPending := false }

/-- A session that is restored is taken up, and its loop goes on unless it pauses. -/
theorem restore_eq (p : Player) (s : Snapshot) :
    p.restore s = (p.takenUp s).map fun q => if q.state = .running then q.run else q := by
  unfold restore outcome resuming takenUp
  simp only [run_bind, run_get, run_lift]
  cases resolveFrame p.root s.frame with
  | error => rfl
  | ok frame =>
    cases s.stack.mapM (resolveFrame p.root) with
    | error => rfl
    | ok stack =>
      dsimp only [bind, Except.bind]
      cases waitsOnText s frame with
      | false => cases s.state <;> rfl
      | true => cases s.state <;> rfl

/-- A session that is restored was taken up, and then its loop went on or it pauses. -/
theorem restore_cases {s : Snapshot} (h : p.restore s = .ok r) :
    ∃ q, p.takenUp s = .ok q ∧ (q.state = .running ∧ r = q.run ∨ r = q) := by
  rw [restore_eq] at h
  cases taken : p.takenUp s with
  | error =>
    rw [taken] at h
    contradiction
  | ok q =>
    rw [taken] at h
    obtain rfl := Except.ok.inj h
    refine ⟨q, rfl, ?_⟩
    dsimp only
    split
    next running => exact .inl ⟨running, rfl⟩
    next => exact .inr rfl

/-- Resuming is atomic: all the places are looked up before anything changes. -/
theorem atomic_resuming (s : Snapshot) : (resuming s).Atomic := by
  refine reads_get.bind fun p => ?_
  refine (reads_lift _).bind fun frame => ?_
  refine (reads_lift _).bind fun stack => ?_
  -- Every place has been found: from here on the player changes, and nothing can fail.
  refine Succeeds.atomic ?_
  refine (succeeds_modify _).bind fun _ => (succeeds_modify _).bind fun _ => ?_
  extract_lets placing
  have placed : ∀ u, (placing u).Succeeds := by
    intro
    refine (succeeds_modify _).bind fun _ => ?_
    split
    next => exact succeeds_modify _
    next => exact succeeds_modify _
  split
  next => exact (succeeds_modify _).bind placed
  next => exact placed ()

/-! ## Save files -/

/-- Loading fails for want of a file, of a session in it, or of a place in the script. -/
theorem load_eq (p : Player) (path : String) (file : Option (List UInt8)) :
    p.load path file = match file with
      | none => .error (.missing path)
      | some bytes => match Snapshot.ofBytes? bytes with
        | none => .error (.undecodable path)
        | some s => (p.restore s).mapError .misfit := by
  unfold load loading
  cases file with
  | none => rfl
  | some bytes =>
    dsimp only
    cases Snapshot.ofBytes? bytes with
    | none => rfl
    | some s => exact outcome_adapt _ _ _

/-- Loading is atomic: a file is read before the session in it is resumed. -/
theorem atomic_loading (path : String) (file : Option (List UInt8)) :
    (loading path file).Atomic := by
  unfold loading
  split
  next => exact (reads_lift (.error _)).atomic
  next =>
    split
    next => exact (reads_lift (.error _)).atomic
    next s _ => exact (atomic_resuming s).adapt _

theorem tryLoad_of_ok {file : Option (List UInt8)} (h : p.load "" file = .ok q) :
    p.tryLoad file = q := left_of_ok h

/-- A session that could not load a file goes on as it was. -/
theorem tryLoad_of_error {file : Option (List UInt8)} {e : LoadError}
    (h : p.load "" file = .error e) : p.tryLoad file = p :=
  (atomic_loading "" file).left_of_error h

/-! ## What does not fit -/

/-- A frame is not resolved exactly if its place does not fit the script. -/
theorem resolveFrame_error_iff {root : Block} {place : FrameSnapshot} :
    (∃ e, resolveFrame root place = .error e) ↔ place.Misfits root := by
  unfold resolveFrame FrameSnapshot.Misfits
  cases Script.resolve root place.path with
  | none => exact iff_of_true ⟨_, rfl⟩ (.inl rfl)
  | some block =>
    dsimp only
    by_cases past : block.length < place.pc
    · rw [if_pos past]
      exact iff_of_true ⟨_, rfl⟩ (.inr ⟨block, rfl, past⟩)
    · rw [if_neg past]
      refine iff_of_false nofun ?_
      rintro (missing | ⟨b, found, further⟩)
      · contradiction
      · obtain rfl := Option.some.inj found
        exact past further

/-- A session is not taken up exactly if one of its places does not fit the script. -/
theorem takenUp_error_iff {s : Snapshot} :
    (∃ e, p.takenUp s = .error e) ↔ ∃ place ∈ s.frame :: s.stack, place.Misfits p.root := by
  have frame : (∃ e, resolveFrame p.root s.frame = .error e) ↔ s.frame.Misfits p.root :=
    resolveFrame_error_iff
  have stack : (∃ e, s.stack.mapM (resolveFrame p.root) = .error e) ↔
      ∃ place ∈ s.stack, place.Misfits p.root := by
    rw [mapM_error_iff]
    simp only [resolveFrame_error_iff]
  simp only [List.mem_cons, exists_eq_or_imp, ← frame, ← stack]
  unfold takenUp
  cases resolveFrame p.root s.frame with
  | error cause => exact iff_of_true ⟨cause, rfl⟩ (.inl ⟨cause, rfl⟩)
  | ok =>
    cases s.stack.mapM (resolveFrame p.root) with
    | error cause => exact iff_of_true ⟨cause, rfl⟩ (.inr ⟨cause, rfl⟩)
    | ok => exact iff_of_false nofun (by simp)

/-- Restoring fails where taking up does: running the loop cannot fail. -/
theorem restore_error_iff {s : Snapshot} {e : RestoreError} :
    p.restore s = .error e ↔ p.takenUp s = .error e := by
  rw [restore_eq]
  cases p.takenUp s with
  | error => rfl
  | ok => exact iff_of_false nofun nofun

/-- A session is not restored exactly if the place it was at, or one it was to return to, is not
in the script of the player. When it is not restored, or not loaded whatever stands in the file,
the player is left as it was. -/
theorem restore_atomic (p : Player) :
    (∀ s : Snapshot, (∃ e, p.restore s = .error e) ↔
      ∃ place ∈ s.frame :: s.stack, place.Misfits p.root) ∧
    (∀ (s : Snapshot) e, p.restore s = .error e → (resuming s).left p = p) ∧
    ∀ path file e, p.load path file = .error e → (loading path file).left p = p := by
  refine ⟨fun s => ?_, fun s e failed => ?_, fun path file e failed => ?_⟩
  · simp only [restore_error_iff]
    exact takenUp_error_iff
  · exact (atomic_resuming s).left_of_error failed
  · exact (atomic_loading path file).left_of_error failed

/-- A line that waits while the screen shakes. -/
def tremble : Block := [.directive "@shake" ["5", "1000"], .dialogue "" "here"]

/-- A snapshot of it that is to return behind the end of the script, and an empty file, stop
neither the wait nor the shaking. -/
theorem restore_atomic_tremble :
    let p := (new ⟨.any, {}, {}⟩ .accepting).start tremble 0
    let s := { p.snapshot with stack := [⟨[], 2⟩, ⟨[], 3⟩] }
    p.session.animator.slots ≠ [] ∧ (∃ e, p.restore s = .error e) ∧ (resuming s).left p = p ∧
      (loading "slot_0.sav" (some [])).left p = p := by
  intro p s
  obtain ⟨fails, restored, loaded⟩ := restore_atomic p
  have misfits : FrameSnapshot.Misfits p.root ⟨[], 3⟩ := .inr ⟨p.root, rfl, by decide +kernel⟩
  obtain ⟨e, failed⟩ := (fails s).mpr ⟨_, by simp [s], misfits⟩
  exact ⟨by decide +kernel, ⟨e, failed⟩, restored s e failed, loaded _ _ (.undecodable _) rfl⟩

end Player

end VisualNovel
