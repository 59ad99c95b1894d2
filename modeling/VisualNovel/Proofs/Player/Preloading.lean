import VisualNovel.Proofs.Player.Events

/-!
# What is loaded ahead

The look ahead resolves assets by itself, and the nodes resolve them again when they are presented,
under conditions of their own. Nothing that a node then makes use of may be missing from what was
looked up, and nothing may be looked up that no node asks for.

Which answers of the resolver a node makes use of is not written down anywhere: a node consults the
resolver about an asset if it would do something else, were the answer another
(`Session.Consults`).

> `Session.present_congr`: all that a node takes from the resolver is its picture and its sound.

> `Preload.getElem?_window`: the nodes that are looked at, by their places.

> `Preload.scan_covers`: what is looked up is what the nodes ahead make use of.
-/

namespace VisualNovel

open Relation

namespace Assets

variable {assets : Assets} {kind k : AssetKind} {name m locator : String} {answer : Option String}

/-- The resolver with another answer to one question. -/
def answering (assets : Assets) (kind : AssetKind) (name : String) (answer : Option String) :
    Assets :=
  fun k m => if k = kind ∧ m = name then answer else assets k m

/-- An answer is another one only where it was asked for. -/
theorem answering_cases (found : assets kind name = some locator) (k : AssetKind) (m : String) :
    assets.answering kind name answer k m = assets k m ∨
      k = kind ∧ assets k m = some locator := by
  unfold answering
  split
  next same =>
    obtain ⟨rfl, rfl⟩ := same
    exact .inr ⟨rfl, found⟩
  next => exact .inl rfl

end Assets

/-- The pictures a node asks the resolver for, by kind and name. -/
def Node.pictures (n : Node) : List (AssetKind × String) :=
  match n.kind with
  | .backgroundSet => [(.background, n.param 0)]
  | .characterShow =>
    [(.character, n.param 0 ++ "_" ++ n.param 1), (.character, n.param 1), (.character, n.param 0)]
  | .imageShow => [(.image, n.param 0)]
  | _ => []

/-- The sounds a node asks the resolver for, by kind and name. -/
def Node.sounds (n : Node) : List (AssetKind × String) :=
  match n.kind with
  | .musicPlay => [(.music, n.param 0)]
  | .soundEffect => [(.sound, n.param 0)]
  | _ => []

/-! ## What a node takes from the resolver -/

namespace Session

open Preload (image? audio?)

variable {setup : Setup} {instant : Bool} {n : Node} {s t : Session} {assets : Assets}

/-- What a node does depends on the answer of the resolver to a question. -/
def Consults (setup : Setup) (n : Node) (s : Session) (kind : AssetKind) (name : String) : Prop :=
  ∃ answer, present { setup with assets := setup.assets.answering kind name answer } false n s ≠
    present setup false n s

/-- A background asks for its name only, and for nothing if it clears. -/
theorem presentBackground_congr {name time : String}
    (same : name ≠ "_" → assets .background name = setup.assets .background name) :
    presentBackground { setup with assets := assets } instant name time s =
      presentBackground setup instant name time s := by
  by_cases clears : name = "_"
  · simp only [presentBackground, clears, if_true]
    rfl
  · simp only [presentBackground, same clears]
    rfl

/-- An object asks for its picture only. -/
theorem presentShow_congr (same : showAsset assets n = showAsset setup.assets n) :
    presentShow { setup with assets := assets } instant n s = presentShow setup instant n s := by
  simp only [presentShow, same]
  rfl

/-- A sound asks for its name only. -/
theorem playSound_congr {kind : AssetKind} {name : String} {volume : Nat}
    (same : assets kind name = setup.assets kind name) :
    playSound { setup with assets := assets } kind name volume s =
      playSound setup kind name volume s := by
  simp only [playSound, same]

/-- A node does the same with two resolvers that find the same picture and the same sound for
it. -/
theorem present_congr (picture : image? assets n = image? setup.assets n)
    (sound : audio? assets n = audio? setup.assets n) :
    present { setup with assets := assets } instant n s = present setup instant n s := by
  unfold image? at picture
  unfold audio? at sound
  unfold present
  cases kind : n.kind with
  | backgroundSet =>
    rw [kind] at picture
    exact congrArg (Effect.mk · .proceed none) (presentBackground_congr fun shows => by
      simpa [shows] using picture)
  | characterShow | imageShow =>
    rw [kind] at picture
    exact congrArg (Effect.mk · .proceed none) (presentShow_congr picture)
  | musicPlay =>
    rw [kind] at sound
    exact congrArg (Effect.mk · .proceed none) (playSound_congr sound)
  | soundEffect =>
    rw [kind] at sound
    dsimp only
    split
    next => rfl
    next => exact congrArg (Effect.mk · .proceed none) (playSound_congr sound)
  | _ => rfl

/-- Of answers in turn the first one counts. If it is another one only where this locator was
found, then so is what counts. -/
theorem or_cases {locator : String} {x x' y y' : Option String} (first : x' = x ∨ x = some locator)
    (second : y' = y ∨ y = some locator) : x'.or y' = x.or y ∨ x.or y = some locator := by
  rcases first with rfl | found
  · cases x' with
    | none => exact second
    | some => exact .inl rfl
  · exact .inr (by rw [found, Option.some_or])

variable {kind : AssetKind} {name locator : String}

/-- With another answer to one question a node finds the same picture, unless the answer was the
picture. -/
theorem image?_answering (found : assets kind name = some locator) (answer : Option String) :
    image? (assets.answering kind name answer) n = image? assets n ∨
      image? assets n = some locator := by
  have look (k : AssetKind) (m : String) : assets.answering kind name answer k m = assets k m ∨
      assets k m = some locator := (Assets.answering_cases found k m).imp_right And.right
  unfold image? showAsset
  cases n.kind with
  | characterShow => exact or_cases (look ..) (or_cases (look ..) (look ..))
  | imageShow => exact look ..
  | backgroundSet =>
    dsimp only
    split
    next => exact .inl rfl
    next => exact look ..
  | _ => exact .inl rfl

/-- The sound of a node is no matter of questions about pictures. -/
theorem audio?_answering (found : assets kind name = some locator) (answer : Option String)
    (notMusic : kind ≠ .music) (notSound : kind ≠ .sound) :
    audio? (assets.answering kind name answer) n = audio? assets n := by
  have look (k : AssetKind) (m : String) (other : k ≠ kind) :
      assets.answering kind name answer k m = assets k m :=
    (Assets.answering_cases found k m).resolve_right fun same => other same.1
  unfold audio?
  cases n.kind with
  | musicPlay => exact look _ _ notMusic.symm
  | soundEffect => exact look _ _ notSound.symm
  | _ => rfl

/-- Every picture that a node makes use of is the one that is looked up for it. -/
theorem Consults.image? (h : s.Consults setup n kind name)
    (found : setup.assets kind name = some locator) (notMusic : kind ≠ .music)
    (notSound : kind ≠ .sound) : image? setup.assets n = some locator := by
  obtain ⟨answer, differs⟩ := h
  rcases image?_answering found answer with same | picture
  · -- With the same picture and the same sound the node would have done the same.
    have sound := audio?_answering (n := n) found answer notMusic notSound
    exact absurd (present_congr same sound) differs
  · exact picture

/-! ## What a node plays -/

/-- What is played between two sessions are sounds that the resolver finds. -/
def PlaysFound (setup : Setup) (s t : Session) : Prop :=
  ∃ calls, t.audio.calls = s.audio.calls ++ calls ∧
    ∀ locator volume, .play locator volume ∈ calls → ∃ kind name,
      (kind = .music ∨ kind = .sound) ∧ setup.assets kind name = some locator

/-- A sound that is played was found. -/
theorem PlaysFound.of_play {volume : Nat} (found : setup.assets kind name = some locator)
    (sounds : kind = .music ∨ kind = .sound) :
    PlaysFound setup s (s.call (.play locator volume)) := by
  refine ⟨[_], rfl, fun l v played => ?_⟩
  cases List.mem_singleton.mp played
  exact ⟨kind, name, sounds, found⟩

/-- Each act plays at most a sound that was found. -/
theorem Act.playsFound (h : Act setup instant s t) : PlaysFound setup s t := by
  cases h with
  | music found => exact .of_play found (.inl rfl)
  | sound _ found => exact .of_play found (.inr rfl)
  | silence => exact ⟨[.stop], rfl, fun l volume played => nomatch List.mem_singleton.mp played⟩
  | _ => exact ⟨[], (List.append_nil _).symm, nofun⟩

/-- So do acts one after the other. -/
theorem Acts.playsFound (h : Acts setup instant s t) : PlaysFound setup s t := by
  induction h with
  | refl => exact ⟨[], (List.append_nil _).symm, nofun⟩
  | tail _ act ih =>
    obtain ⟨calls, called, found⟩ := ih
    obtain ⟨more, called', found'⟩ := act.playsFound
    refine ⟨calls ++ more, by rw [called', called, List.append_assoc], ?_⟩
    intro locator volume played
    exact (List.mem_append.mp played).elim (found locator volume) (found' locator volume)

/-- The resolver that answers every question about sounds with the sound of a node. -/
def soundingOf (assets : Assets) (n : Node) : Assets := fun kind name =>
  if kind = .music ∨ kind = .sound then audio? assets n else assets kind name

/-- Answers about sounds make no difference to the picture of a node. -/
theorem image?_soundingOf : image? (soundingOf assets n) n = image? assets n := by
  unfold image? showAsset
  cases n.kind with
  | characterShow | imageShow | backgroundSet => simp [soundingOf]
  | _ => rfl

/-- The sound of a node is what the resolver answers to any question about sounds. -/
theorem audio?_soundingOf : audio? (soundingOf assets n) n = audio? assets n := by
  cases kind : n.kind with
  | musicPlay | soundEffect => simp [audio?, soundingOf, kind]
  | _ => simp [audio?, kind]

/-- A node plays no sound but the one that is looked up for it. -/
theorem present_plays (setup : Setup) (n : Node) (s : Session) :
    ∃ calls, (present setup false n s).session.audio.calls = s.audio.calls ++ calls ∧
      ∀ locator volume, .play locator volume ∈ calls → audio? setup.assets n = some locator := by
  -- Asked through a resolver that has no other sound to offer, the node plays the same.
  obtain ⟨calls, called, found⟩ := (acts_present
    { setup with assets := soundingOf setup.assets n } false n s).playsFound
  rw [present_congr image?_soundingOf audio?_soundingOf] at called
  refine ⟨calls, called, fun locator volume played => ?_⟩
  obtain ⟨kind, name, sounds, answer⟩ := found locator volume played
  exact (if_pos sounds).symm.trans answer

end Session

/-! ## What lies ahead -/

namespace Preload

open Session (Consults)

variable {α : Type} {block : Block} {pc ahead : Nat} {n : Node} {assets : Assets}

/-- The node at a place is one of so many from `pc` on, and neither it nor one between makes
uncertain what comes next. -/
structure LiesAhead (block : Block) (pc ahead i : Nat) (n : Node) : Prop where
  here : block[i]? = some n
  notBefore : pc ≤ i
  near : i < pc + ahead
  certain : ∀ j m, pc ≤ j → j ≤ i → block[j]? = some m →
    m.kind ≠ .label ∧ m.kind ≠ .goto ∧ m.kind ≠ .choicePrompt ∧ m.kind ≠ .conditional

/-- Four kinds of nodes make uncertain what comes next. -/
theorem isBoundary_eq_false :
    isBoundary n = false ↔
      n.kind ≠ .label ∧ n.kind ≠ .goto ∧ n.kind ≠ .choicePrompt ∧ n.kind ≠ .conditional := by
  simp [isBoundary, and_assoc]

/-- What is taken is taken up to the first element that fails the test. -/
theorem getElem?_takeWhile {test : α → Bool} {xs : List α} {k : Nat} {x : α} :
    (xs.takeWhile test)[k]? = some x ↔
      xs[k]? = some x ∧ ∀ j y, j ≤ k → xs[j]? = some y → test y = true := by
  induction xs generalizing k with
  | nil => simp
  | cons a as ih =>
    rw [List.takeWhile_cons]
    split
    next passes =>
      cases k with
      | zero =>
        refine ⟨fun same => ⟨same, fun j y first hy => ?_⟩, fun h => h.1⟩
        obtain rfl := Nat.le_zero.mp first
        cases hy
        exact passes
      | succ k =>
        rw [List.getElem?_cons_succ, List.getElem?_cons_succ, ih]
        refine and_congr_right fun _ => ⟨fun all j y early hy => ?_, fun all j y early hy => ?_⟩
        · cases j with
          | zero =>
            cases hy
            exact passes
          | succ j => exact all j y (Nat.le_of_succ_le_succ early) hy
        · exact all (j + 1) y (Nat.succ_le_succ early) hy
    next fails =>
      exact iff_of_false (by simp) fun h => fails (h.2 0 a (Nat.zero_le k) rfl)

/-- The nodes that are looked at are those that lie ahead, in their order. -/
theorem getElem?_window {k : Nat} :
    (window block pc ahead)[k]? = some n ↔ LiesAhead block pc ahead (pc + k) n := by
  unfold window
  rw [getElem?_takeWhile]
  simp only [List.getElem?_take, List.getElem?_drop, Bool.not_eq_true', isBoundary_eq_false]
  constructor
  · rintro ⟨here, certain⟩
    obtain ⟨near, here⟩ := Option.ite_none_right_eq_some.mp here
    refine ⟨here, Nat.le_add_right pc k, by omega, fun j m notBefore upTo hj => ?_⟩
    refine certain (j - pc) m (by omega) ?_
    rw [if_pos (by omega), Nat.add_sub_cancel' notBefore]
    exact hj
  · intro h
    have near : k < ahead := Nat.lt_of_add_lt_add_left h.near
    rw [if_pos near]
    refine ⟨h.here, fun j m early hj => ?_⟩
    rw [if_pos (Nat.lt_of_le_of_lt early near)] at hj
    exact h.certain (pc + j) m (Nat.le_add_right pc j) (Nat.add_le_add_left early pc) hj

/-- What lies ahead is in the window. -/
theorem LiesAhead.mem_window {i : Nat} (h : LiesAhead block pc ahead i n) :
    n ∈ window block pc ahead := by
  refine List.mem_of_getElem? (i := i - pc) (getElem?_window.mpr ?_)
  rw [Nat.add_sub_cancel' h.notBefore]
  exact h

/-! ## What is found -/

/-- Leaving out repetitions leaves out no locator. -/
theorem mem_distinct {locators : List String} {l : String} :
    l ∈ distinct locators ↔ l ∈ locators := by
  induction locators with
  | nil => exact Iff.rfl
  | cons a as ih =>
    rw [distinct, List.mem_cons, List.mem_cons, List.mem_filter, ih]
    by_cases same : l = a
    · simp [same]
    · simp [same]

/-- Wherever the second locator comes from, the first one came from before. -/
def Precedes (found : α → Option String) (xs : List α) (a b : String) : Prop :=
  ∀ (i : Nat) (x : α), xs[i]? = some x → found x = some b →
    ∃ j < i, ∃ y, xs[j]? = some y ∧ found y = some a

/-- An element in front makes no difference unless it brings the second locator. -/
theorem Precedes.cons {found : α → Option String} {xs : List α} {x : α} {a b : String}
    (h : Precedes found xs a b) (other : found x ≠ some b) : Precedes found (x :: xs) a b := by
  intro i y hy comes
  cases i with
  | zero =>
    cases hy
    exact absurd comes other
  | succ i =>
    obtain ⟨j, before, z, hz, comes⟩ := h i y hy comes
    exact ⟨j + 1, Nat.succ_lt_succ before, z, hz, comes⟩

/-- What is found comes once, in the order of where it comes from first. -/
theorem pairwise_distinct (found : α → Option String) (xs : List α) :
    (distinct (xs.filterMap found)).Pairwise fun a b => a ≠ b ∧ Precedes found xs a b := by
  induction xs with
  | nil => exact List.Pairwise.nil
  | cons x xs ih =>
    cases here : found x with
    | none =>
      rw [List.filterMap_cons_none here]
      exact ih.imp fun h => ⟨h.1, h.2.cons (by rw [here]; nofun)⟩
    | some first =>
      rw [List.filterMap_cons_some here, distinct, List.pairwise_cons]
      have other {b : String} (hb : b ∈ (distinct (xs.filterMap found)).filter (· ≠ first)) :
          b ≠ first := by simpa using (List.mem_filter.mp hb).2
      -- Every other locator comes after this one, and repetitions of this one are taken out.
      refine ⟨fun b hb => ⟨(other hb).symm, fun i y hy comes => ?_⟩, ?_⟩
      · cases i with
        | zero =>
          cases hy
          exact absurd (Option.some.inj (comes.symm.trans here)) (other hb)
        | succ i => exact ⟨0, Nat.succ_pos i, x, rfl, here⟩
      · refine (ih.filter _).imp_of_mem fun _ hb h => ⟨h.1, h.2.cons fun same => other hb ?_⟩
        exact Option.some.inj (same.symm.trans here)

/-- The locators are free of repetitions and in the order of the places ahead that they come from
first, and each is the answer to a question of a node ahead. -/
structure Collected (assets : Assets) (block : Block) (pc ahead : Nat)
    (found : Node → Option String) (asked : Node → List (AssetKind × String))
    (locators : List String) : Prop where
  nodup : locators.Nodup
  ordered : locators.Pairwise fun a b => ∀ i n, LiesAhead block pc ahead i n → found n = some b →
    ∃ j < i, ∃ m, LiesAhead block pc ahead j m ∧ found m = some a
  answers : ∀ l ∈ locators, ∃ i n, LiesAhead block pc ahead i n ∧ found n = some l ∧
    ∃ kind name, (kind, name) ∈ asked n ∧ assets kind name = some l

/-- What is found in the window, each once, is collected from what lies ahead. -/
theorem collected_distinct {found : Node → Option String} {asked : Node → List (AssetKind × String)}
    (answers : ∀ n l, found n = some l →
      ∃ kind name, (kind, name) ∈ asked n ∧ assets kind name = some l) :
    Collected assets block pc ahead found asked
      (distinct ((window block pc ahead).filterMap found)) where
  nodup := (pairwise_distinct found _).imp And.left
  ordered := by
    refine (pairwise_distinct found _).imp fun h i n hn comes => ?_
    have place : pc + (i - pc) = i := Nat.add_sub_cancel' hn.notBefore
    obtain ⟨j, before, m, hm, comes⟩ :=
      h.2 (i - pc) n (getElem?_window.mpr (place.symm ▸ hn)) comes
    exact ⟨pc + j, by omega, m, getElem?_window.mp hm, comes⟩
  answers := by
    intro l hl
    obtain ⟨n, hn, comes⟩ := List.mem_filterMap.mp (mem_distinct.mp hl)
    obtain ⟨k, here⟩ := List.mem_iff_getElem?.mp hn
    exact ⟨pc + k, n, getElem?_window.mp here, comes, answers n l comes⟩

/-- The picture that is looked up for a node answers a question of the node. -/
theorem image?_answers (n : Node) (l : String) (h : image? assets n = some l) :
    ∃ kind name, (kind, name) ∈ n.pictures ∧ assets kind name = some l := by
  unfold image? showAsset at h
  unfold Node.pictures
  cases kind : n.kind with
  | characterShow =>
    simp only [kind, if_true] at h
    rcases Option.or_eq_some_iff.mp h with first | ⟨-, h⟩
    · exact ⟨_, _, List.mem_cons_self, first⟩
    · rcases Option.or_eq_some_iff.mp h with second | ⟨-, third⟩
      · exact ⟨_, _, by simp, second⟩
      · exact ⟨_, _, by simp, third⟩
  | imageShow =>
    rw [kind] at h
    exact ⟨_, _, List.mem_cons_self, h⟩
  | backgroundSet =>
    rw [kind] at h
    exact ⟨_, _, List.mem_cons_self, (Option.ite_none_left_eq_some.mp h).2⟩
  | _ =>
    rw [kind] at h
    contradiction

/-- So does the sound. -/
theorem audio?_answers (n : Node) (l : String) (h : audio? assets n = some l) :
    ∃ kind name, (kind, name) ∈ n.sounds ∧ assets kind name = some l := by
  unfold audio? at h
  unfold Node.sounds
  cases kind : n.kind with
  | musicPlay | soundEffect =>
    rw [kind] at h
    exact ⟨_, _, List.mem_cons_self, h⟩
  | _ =>
    rw [kind] at h
    contradiction

/-- Whatever the session is when a node ahead is presented, every picture that it makes use of is
among those that were looked up, and every sound that it plays. What was looked up is free of
repetitions, in the order of the nodes, and nothing but answers that these nodes ask for. -/
theorem scan_covers (setup : Setup) (block : Block) (pc ahead : Nat) :
    let scanned := scan block pc ahead setup.assets
    (∀ i n, LiesAhead block pc ahead i n → ∀ s : Session,
      (∀ kind name locator, s.Consults setup n kind name → kind ≠ .music → kind ≠ .sound →
        setup.assets kind name = some locator → locator ∈ scanned.1) ∧
      ∃ calls, (s.present setup false n).session.audio.calls = s.audio.calls ++ calls ∧
        ∀ locator volume, .play locator volume ∈ calls → locator ∈ scanned.2) ∧
    Collected setup.assets block pc ahead (image? setup.assets) Node.pictures scanned.1 ∧
    Collected setup.assets block pc ahead (audio? setup.assets) Node.sounds scanned.2 := by
  intro scanned
  refine ⟨fun i n hn s => ⟨fun kind name locator consults notMusic notSound found => ?_, ?_⟩,
    collected_distinct image?_answers, collected_distinct audio?_answers⟩
  · have picture := consults.image? found notMusic notSound
    exact mem_distinct.mpr (List.mem_filterMap.mpr ⟨n, hn.mem_window, picture⟩)
  · obtain ⟨calls, called, plays⟩ := Session.present_plays setup n s
    refine ⟨calls, called, fun locator volume played => ?_⟩
    have sound := plays locator volume played
    exact mem_distinct.mpr (List.mem_filterMap.mpr ⟨n, hn.mem_window, sound⟩)

/-- A room, a character whose face has a picture, music, the room again, and behind a label another
room. -/
def parlour : Block :=
  [.directive "@bg" ["room"], .directive "@chara_in" ["alice", "smile"],
    .directive "@bgm" ["theme"], .directive "@bg" ["room", "500"], .ofLabel "later",
    .directive "@bg" ["garden"]]

/-- The character consults the resolver about its face, the music is played, and both were looked
up; the room comes once, before the face, and the other room not at all. -/
theorem scan_covers_parlour :
    let assets := Assets.ofList [(.background, "room"), (.background, "garden"),
      (.character, "smile"), (.music, "theme")]
    let setup : Setup := ⟨assets, {}, {}⟩
    let s := (Player.new setup .accepting).session
    let scanned := scan parlour 0 10 assets
    LiesAhead parlour 0 10 1 parlour[1] ∧ s.Consults setup parlour[1] .character "smile" ∧
      "characters/smile" ∈ scanned.1 ∧
      (s.present setup false parlour[2]).session.audio.calls = [.play "bgm/theme" 100] ∧
      "bgm/theme" ∈ scanned.2 ∧ scanned.1.Nodup ∧
      scanned = (["bg/room", "characters/smile"], ["bgm/theme"]) := by
  intro assets setup s scanned
  obtain ⟨covers, pictures, -⟩ := scan_covers setup parlour 0 10
  have face : LiesAhead parlour 0 10 1 parlour[1] :=
    (getElem?_window (k := 1)).mp rfl
  have music : LiesAhead parlour 0 10 2 parlour[2] :=
    (getElem?_window (k := 2)).mp rfl
  have consults : s.Consults setup parlour[1] .character "smile" := by
    refine ⟨none, fun same => ?_⟩
    have shown := congrArg (fun e => (e.session.stage.objects.find? "alice").bind (·.asset)) same
    revert shown
    decide +kernel
  have played : (s.present setup false parlour[2]).session.audio.calls =
      [.play "bgm/theme" 100] := by decide +kernel
  obtain ⟨calls, called, found⟩ := (covers 2 _ music s).2
  obtain rfl : calls = [.play "bgm/theme" 100] := called.symm.trans played
  exact ⟨face, consults,
    (covers 1 _ face s).1 .character "smile" "characters/smile" consults nofun nofun rfl,
    played, found "bgm/theme" 100 (List.mem_singleton_self _), pictures.nodup, by decide +kernel⟩

end Preload

end VisualNovel
