import VisualNovel.Proofs.Save.Exact
import VisualNovel.Proofs.Player.Attempts

/-!
# Save files are a prefix code

The format of a save file is exact field by field, so it is exact as a whole. A file is
read back whatever stands behind it, down to the bits of its numbers and the order of its
tables, and a file of which only a part was written is refused before the session it was to
be resumed in has changed.

What a session can store is limited by its counts, which have to fit the words they are
written in: `Snapshot.Storable` names them.

> `snapshot_exact`: a storable snapshot is read back, and reading looks at its bytes only.

> `load_prefixCode`: so is its save file, and no part of the file can be loaded.
-/

namespace VisualNovel

open Codec

/-! ## What fits the words of the format -/

/-- The texts of an option can be counted. -/
structure ChoiceOption.Storable (o : ChoiceOption) : Prop where
  text : CountedText o.text
  target : CountedText o.target

/-- The texts of a record can be counted. -/
structure DialogueRecord.Storable (r : DialogueRecord) : Prop where
  speaker : CountedText r.speaker
  text : CountedText r.text

/-- The texts of an object can be counted. -/
structure StageObject.Storable (o : StageObject) : Prop where
  name : CountedText o.name
  asset : ∀ path ∈ o.asset, CountedText path

/-- The texts, lists and tables of a stage can be counted, and so could its revisions. -/
structure Stage.Storable (s : Stage) : Prop where
  background : ∀ path ∈ s.background, CountedText path
  backgroundName : CountedText s.backgroundName
  speaker : CountedText s.speaker
  message : CountedText s.message
  targetMessage : CountedText s.targetMessage
  choices : Counted ChoiceOption.Storable s.choices
  objects : Counted (fun e => CountedText e.1 ∧ e.2.Storable) s.objects.entries
  revision : s.revision < twoPow 64
  history : Counted DialogueRecord.Storable s.history

/-- What is left of a pause fits half a word. -/
def PlayerState.Storable : PlayerState → Prop
  | .delaying remaining => remaining < twoPow 32
  | _ => True

/-- Every place on the way to a frame fits a word, and so does the place in it. -/
structure FrameSnapshot.Storable (f : FrameSnapshot) : Prop where
  path : Counted (fun (s : BranchStep) => s.index < twoPow 64) f.path
  pc : f.pc < twoPow 64

/-- Everything that is counted in a session fits the words of the format. -/
structure Snapshot.Storable (s : Snapshot) : Prop where
  stage : s.stage.Storable
  vars : Counted (fun e => CountedText e.1 ∧ CountedText e.2) s.vars.entries
  state : s.state.Storable
  frame : s.frame.Storable
  stack : Counted FrameSnapshot.Storable s.stack

namespace Codec

/-! ## The stage -/

/-- A colour is four bytes. -/
theorem color_exact : color.Exact fun _ => True :=
  ((byte_exact.pair (byte_exact.pair (byte_exact.pair byte_exact))).via fun _ => rfl).mono
    fun _ _ => ⟨trivial, trivial, trivial, trivial⟩

/-- The kind of an object is the number of its variant. -/
theorem objectKind_exact : objectKind.Exact fun _ => True :=
  (nat32_exact.viaSome fun k => by cases k <;> rfl).mono fun k _ => by cases k <;> decide

/-- An object is exact field by field, in the order they are written. -/
theorem stageObject_exact : stageObject.Exact StageObject.Storable :=
  ((string_exact.pair <| objectKind_exact.pair <| string_exact.option.pair <|
    int32_exact.pair <| int32_exact.pair <| bool_exact.pair <| single_exact.pair <|
    single_exact.pair <| single_exact.pair <| single_exact.pair <| color_exact.option.pair <|
    bool_exact.pair single_exact).via fun _ => rfl).mono
    fun _ fits => ⟨fits.name, trivial, fits.asset, trivial, trivial, trivial, trivial, trivial,
      trivial, trivial, fun _ _ => trivial, trivial, trivial⟩

/-- An option is its text and its target. -/
theorem choiceOption_exact : choiceOption.Exact ChoiceOption.Storable :=
  ((string_exact.pair string_exact).via fun _ => rfl).mono fun _ fits => ⟨fits.text, fits.target⟩

theorem dialogueRecord_exact : dialogueRecord.Exact DialogueRecord.Storable :=
  ((string_exact.pair string_exact).via fun _ => rfl).mono fun _ fits => ⟨fits.speaker, fits.text⟩

/-- The stage is exact field by field, in the order they are written. -/
theorem stage_exact : stage.Exact Stage.Storable :=
  ((string_exact.option.pair <| string_exact.pair <| single_exact.pair <| color_exact.pair <|
    single_exact.pair <| bool_exact.pair <| string_exact.pair <| string_exact.pair <|
    string_exact.pair <| choiceOption_exact.list.pair <| stageObject_exact.table.pair <|
    nat64_exact.pair dialogueRecord_exact.list).via fun _ => rfl).mono
    fun _ fits => ⟨fits.background, fits.backgroundName, trivial, trivial, trivial, trivial,
      fits.speaker, fits.message, fits.targetMessage, fits.choices, fits.objects,
      fits.revision, fits.history⟩

/-! ## The place in the script -/

/-- Reading the state behind its number looks no further than the pause that is left. -/
theorem readState_append {tag : Nat} {rest left : List UInt8} {state : PlayerState}
    (h : readState tag rest = some (state, left)) (more : List UInt8) :
    readState tag (rest ++ more) = some (state, left ++ more) := by
  unfold readState at h ⊢
  split at h
  case h_3 =>
    -- A pause is the one state with something behind its number.
    obtain ⟨⟨ms, after⟩, read, same⟩ := Option.map_eq_some_iff.mp h
    cases same
    dsimp only
    rw [nat32_exact.decode_append read, Option.map_some]
  case h_8 => contradiction
  all_goals
    cases Option.some.inj h
    rfl

/-- The state of a player is the number of its variant, and for a pause what is left of it. -/
theorem playerState_exact : playerState.Exact PlayerState.Storable where
  decode_encode := fun {state} fits rest => by
    have tagged : ∀ tag, tag < twoPow 32 → ∀ left,
        playerState.decode (nat32.encode tag ++ left) = readState tag left := by
      intro tag small left
      show (nat32.decode _).bind _ = _
      rw [nat32_exact.decode_encode small, Option.bind_some]
    cases state with
    | delaying remaining =>
      show playerState.decode ((nat32.encode 2 ++ nat32.encode remaining) ++ rest) = _
      rw [List.append_assoc, tagged 2 (by decide)]
      show (nat32.decode _).map _ = _
      rw [nat32_exact.decode_encode fits, Option.map_some]
    | loading => exact tagged 0 (by decide) rest
    | running => exact tagged 1 (by decide) rest
    | waitingForClick => exact tagged 3 (by decide) rest
    | waitingForChoice => exact tagged 4 (by decide) rest
    | closing => exact tagged 5 (by decide) rest
    | terminated => exact tagged 6 (by decide) rest
  decode_append := fun {bytes state rest} read more => by
    obtain ⟨⟨tag, left⟩, first, read⟩ := Option.bind_eq_some_iff.mp read
    show (nat32.decode (bytes ++ more)).bind _ = _
    rw [nat32_exact.decode_append first, Option.bind_some]
    exact readState_append read more

/-- A step into a branch is a word and a side. -/
theorem branchStep_exact : branchStep.Exact fun s => s.index < twoPow 64 :=
  ((nat64_exact.pair bool_exact).via fun _ => rfl).mono fun _ fits => ⟨fits, trivial⟩

/-- A frame is the way to it and the place in it. -/
theorem frameSnapshot_exact : frameSnapshot.Exact FrameSnapshot.Storable :=
  ((branchStep_exact.list.pair nat64_exact).via fun _ => rfl).mono
    fun _ fits => ⟨fits.path, fits.pc⟩

/-- A session is exact as a whole: stage, variables, state and frames are. -/
theorem snapshot_exact : snapshot.Exact Snapshot.Storable :=
  ((stage_exact.pair <| string_exact.table.pair <| playerState_exact.pair <|
    frameSnapshot_exact.pair frameSnapshot_exact.list).via fun _ => rfl).mono
    fun _ fits => ⟨fits.stage, fits.vars, fits.state, fits.frame, fits.stack⟩

end Codec

/-! ## Files -/

namespace Player

/-- Bytes that do not begin with a session are refused as a save file. -/
theorem load_of_unreadable {bytes : List UInt8} (h : Codec.snapshot.decode bytes = none)
    (p : Player) (path : String) : p.load path (some bytes) = .error (.undecodable path) := by
  have unread : Snapshot.ofBytes? bytes = none := by
    rw [Snapshot.ofBytes?, h]
    rfl
  rw [load_eq]
  dsimp only
  rw [unread]

/-- A save file is read back with all its bytes, whatever follows them. A part of it is no
save file: loading fails, and a session that tried goes on as it was. -/
theorem load_prefixCode {s : Snapshot} (h : s.Storable) :
    (∀ rest, Codec.snapshot.decode (s.toBytes ++ rest) = some (s, rest)) ∧
      ∀ cut, cut <+: s.toBytes → cut ≠ s.toBytes →
        Codec.snapshot.decode cut = none ∧
          ∀ (p : Player) (path : String),
            p.load path (some cut) = .error (.undecodable path) ∧ p.tryLoad (some cut) = p := by
  refine ⟨fun rest => snapshot_exact.decode_encode h rest, fun cut isPrefix proper => ?_⟩
  have unread : Codec.snapshot.decode cut = none :=
    snapshot_exact.decode_of_isPrefix h isPrefix proper
  exact ⟨unread, fun p path => ⟨load_of_unreadable unread p path,
    tryLoad_of_error (load_of_unreadable unread p "")⟩⟩

/-- A session in the first pause of a branch, one line spoken. -/
def pausedSession : Snapshot where
  stage := { Stage.empty with
    speaker := "é", history := [⟨"é", "a"⟩], choices := [⟨"b", "c"⟩], revision := 251,
    objects := Table.empty.insert "x" (.ofPlace "x" .image (some "y") (-300) 4) }
  vars := Table.empty.insert "n" "1"
  state := .delaying 65536
  frame := ⟨[⟨0, true⟩], 1⟩
  stack := [⟨[], 1⟩]

/-- The paused session fits the format. It is read back before another byte, and not without its
last one. -/
theorem load_prefixCode_paused :
    pausedSession.Storable ∧
      Codec.snapshot.decode (pausedSession.toBytes ++ [7]) = some (pausedSession, [7]) ∧
        Codec.snapshot.decode pausedSession.toBytes.dropLast = none := by
  have storable : pausedSession.Storable := by
    refine ⟨⟨nofun, by decide, by decide, by decide, by decide, ⟨by decide, ?_⟩,
      ⟨by decide, ?_⟩, by decide, ⟨by decide, ?_⟩⟩, ⟨by decide, by decide⟩,
      show 65536 < twoPow 32 by decide, ⟨⟨by decide, by decide⟩, by decide⟩, ⟨by decide, ?_⟩⟩
    · exact List.forall_mem_singleton.mpr ⟨by decide, by decide⟩
    · exact List.forall_mem_singleton.mpr ⟨by decide, by decide, fun path h => by
        cases Option.some.inj h
        decide⟩
    · exact List.forall_mem_singleton.mpr ⟨by decide, by decide⟩
    · exact List.forall_mem_singleton.mpr ⟨⟨by decide, nofun⟩, by decide⟩
  have code := load_prefixCode storable
  exact ⟨storable, code.1 [7],
    (code.2 pausedSession.toBytes.dropLast (List.dropLast_prefix _) (by decide)).1⟩

end Player

end VisualNovel
