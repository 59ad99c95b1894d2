import Mathlib.Data.List.Induction
import Mathlib.Data.List.Nodup
import VisualNovel.Stage.Assets

/-!
# The index does not depend on the order of the files

Files are added to the index one after the other. A file takes the place of another one with the
same name if its extension ranks before that one's, and the rank of the one that is there is
worked out again each time. So what is kept under a name is, at every point, the first of the best
files added so far (`Answers.add`), and if no two files of a name rank alike there is only one
that can be kept.

> `AssetIndex.answers_ofFiles`: what the index answers, for any files in any order.

> `AssetIndex.ofFiles_anyOrder`: without files that share a name and an extension, the index of
> files is the same in any order.
-/

namespace VisualNovel

/-- The extension of a path in lower case. -/
def Path.lowerExtension? (path : String) : Option String :=
  (extension? path).map fun e => String.ofList (e.toList.map Char.toLower)

open VisualNovel.Path

/-- The rank of a path is the place of its extension among those of assets. -/
theorem assetRank?_eq_some_iff {path : String} {rank : Nat} : assetRank? path = some rank ↔
    ∃ ext ∈ assetExtensions, lowerExtension? path = some ext ∧
      assetExtensions.idxOf ext = rank := by
  have place (ext : String) : assetExtensions.findIdx? (· == ext) = some rank ↔
      ext ∈ assetExtensions ∧ assetExtensions.idxOf ext = rank := by
    rw [List.findIdx?_eq_some_iff_findIdx_eq, ← List.idxOf_lt_length_iff]
    show rank < _ ∧ assetExtensions.idxOf ext = rank ↔ _
    refine and_congr_left fun place => ?_
    rw [place]
  unfold assetRank? lowerExtension?
  cases extension? path with
  | none => simp
  | some e => simp [place]

namespace AssetIndex

/-- Two files of one kind with the same name and, in lower case, the same extension. -/
def SameName (f g : AssetKind × String) : Prop :=
  f.1 = g.1 ∧ stem? f.2 = stem? g.2 ∧
    ∃ ext ∈ lowerExtension? f.2, lowerExtension? g.2 = some ext

instance (f g : AssetKind × String) : Decidable (SameName f g) :=
  inferInstanceAs (Decidable (_ ∧ _ ∧ _))

/-- Of the files of a kind with a name, a path has the extension that comes first among those of
assets. -/
structure Preferred (files : List (AssetKind × String)) (kind : AssetKind) (name path : String) :
    Prop where
  mem : (kind, path) ∈ files
  named : stem? path = some name
  first : ∃ ext ∈ assetExtensions, lowerExtension? path = some ext ∧
    ∀ other ext', (kind, other) ∈ files → stem? other = some name →
      lowerExtension? other = some ext' → ext' ∈ assetExtensions →
      assetExtensions.idxOf ext ≤ assetExtensions.idxOf ext'

/-- What is to be answered for a kind and a name: the preferred path, or nothing if no file of
that kind and name has the extension of an asset. -/
def Answers (files : List (AssetKind × String)) (kind : AssetKind) (name : String) :
    Option String → Prop
  | some path => Preferred files kind name path
  | none => ∀ path ext, (kind, path) ∈ files → stem? path = some name →
    lowerExtension? path = some ext → ext ∉ assetExtensions

variable {files files' : List (AssetKind × String)} {kind k : AssetKind} {name n path : String}
  {index : AssetIndex}

/-! ## One file -/

/-- The file that is kept of the one in the index and another one of the same name. -/
def kept (existing : Option String) (path : String) : Option String :=
  match assetRank? path, existing with
  | none, _ => existing
  | some _, none => some path
  | some rank, some old => if (assetRank? old).all (rank < ·) then some path else some old

theorem find?_concat (new : index.find? kind name = none) :
    find? (index ++ [⟨kind, name, path⟩]) k n =
      if k = kind ∧ n = name then some path else index.find? k n := by
  unfold find? at new ⊢
  rw [List.find?_append]
  split
  next key =>
    obtain ⟨rfl, rfl⟩ := key
    rw [Option.map_eq_none_iff.mp new]
    simp
  next other =>
    have skipped : ([⟨kind, name, path⟩] : AssetIndex).find?
        (fun a => a.kind == k && a.name == n) = none := by
      rw [List.find?_cons_of_neg, List.find?_nil]
      simp only [Bool.and_eq_true, beq_iff_eq]
      exact fun same => other ⟨same.1.symm, same.2.symm⟩
    rw [skipped, Option.or_none]

theorem find?_replace : (index.replace kind name path).find? k n =
    if k = kind ∧ n = name then (index.find? k n).map fun _ => path else index.find? k n := by
  unfold find? replace
  rw [List.find?_map]
  have sameKey : (fun a : IndexedAsset => a.kind == k && a.name == n) ∘
      (fun a => if a.kind = kind ∧ a.name = name then { a with path := path } else a) =
      fun a => a.kind == k && a.name == n := by
    funext a
    simp only [Function.comp]
    split
    next => rfl
    next => rfl
  rw [sameKey]
  cases found : List.find? (fun a => a.kind == k && a.name == n) index with
  | none => simp
  | some a =>
    have key := List.find?_some found
    simp only [Bool.and_eq_true, beq_iff_eq] at key
    obtain ⟨rfl, rfl⟩ := key
    simp only [Option.map_some]
    split
    next => rfl
    next => rfl

/-- A file changes what is answered for its own kind and name. -/
theorem find?_add (index : AssetIndex) (kind : AssetKind) (path : String) :
    (index.add kind path).find? k n =
      if k = kind ∧ stem? path = some n then kept (index.find? k n) path
      else index.find? k n := by
  unfold add kept
  cases assetRank? path with
  | none => simp
  | some rank =>
    cases stem? path with
    | none => simp
    | some name =>
      simp only [Option.some.injEq, eq_comm (a := name)]
      cases held : index.find? kind name with
      | none =>
        dsimp only
        rw [find?_concat held]
        split
        next key =>
          obtain ⟨rfl, rfl⟩ := key
          rw [held]
        next => rfl
      | some old =>
        dsimp only
        -- The old file makes room or stays, and the entries of other names are left alone.
        split
        next better =>
          rw [find?_replace]
          split
          next key =>
            obtain ⟨rfl, rfl⟩ := key
            simp only [held, better, if_true, Option.map_some]
          next => rfl
        next worse =>
          split
          next key =>
            obtain ⟨rfl, rfl⟩ := key
            simp only [held, if_neg worse]
          next => rfl

/-- A file of a kind with a name that can be found, and its rank. -/
def Candidate (files : List (AssetKind × String)) (kind : AssetKind) (name path : String)
    (rank : Nat) : Prop :=
  (kind, path) ∈ files ∧ stem? path = some name ∧ assetRank? path = some rank

theorem preferred_iff : Preferred files k n path ↔ ∃ rank, Candidate files k n path rank ∧
    ∀ other r, Candidate files k n other r → rank ≤ r := by
  constructor
  · rintro ⟨mem, named, ext, listed, has, first⟩
    refine ⟨_, ⟨mem, named, assetRank?_eq_some_iff.mpr ⟨ext, listed, has, rfl⟩⟩, ?_⟩
    rintro other r ⟨mem', named', ranked⟩
    obtain ⟨ext', listed', has', rfl⟩ := assetRank?_eq_some_iff.mp ranked
    exact first other ext' mem' named' has' listed'
  · rintro ⟨rank, ⟨mem, named, ranked⟩, least⟩
    obtain ⟨ext, listed, has, rfl⟩ := assetRank?_eq_some_iff.mp ranked
    refine ⟨mem, named, ext, listed, has, fun other ext' mem' named' has' listed' => ?_⟩
    exact least other _ ⟨mem', named', assetRank?_eq_some_iff.mpr ⟨ext', listed', has', rfl⟩⟩

theorem answers_none_iff :
    Answers files k n none ↔ ∀ path rank, ¬Candidate files k n path rank := by
  constructor
  · rintro none path rank ⟨mem, named, ranked⟩
    obtain ⟨ext, listed, has, -⟩ := assetRank?_eq_some_iff.mp ranked
    exact none path ext mem named has listed
  · intro none path ext mem named has listed
    exact none path _ ⟨mem, named, assetRank?_eq_some_iff.mpr ⟨ext, listed, has, rfl⟩⟩

theorem candidate_concat {p : String} {rank : Nat} :
    Candidate (files ++ [(kind, path)]) k n p rank ↔
      Candidate files k n p rank ∨
        (k = kind ∧ p = path) ∧ stem? path = some n ∧ assetRank? path = some rank := by
  unfold Candidate
  rw [List.mem_append, List.mem_singleton, Prod.mk.injEq, or_and_right]
  refine or_congr_right ⟨?_, ?_⟩
  · rintro ⟨⟨rfl, rfl⟩, rest⟩
    exact ⟨⟨rfl, rfl⟩, rest⟩
  · rintro ⟨⟨rfl, rfl⟩, rest⟩
    exact ⟨⟨rfl, rfl⟩, rest⟩

/-- A file that is no candidate changes no answer. -/
theorem Answers.pass {answer : Option String} (h : Answers files k n answer)
    (none : ∀ rank, k = kind → stem? path = some n → assetRank? path ≠ some rank) :
    Answers (files ++ [(kind, path)]) k n answer := by
  have same {p : String} {rank : Nat} :
      Candidate (files ++ [(kind, path)]) k n p rank ↔ Candidate files k n p rank := by
    rw [candidate_concat, or_iff_left]
    exact fun ⟨⟨kinds, _⟩, named, ranked⟩ => none rank kinds named ranked
  cases answer with
  | none => simpa only [answers_none_iff, same] using h
  | some p => simpa only [Answers, preferred_iff, same] using h

/-- A rank is least after one more candidate, if it was before and is not above that one's. -/
theorem least_concat {least rank : Nat} (before : ∀ p r, Candidate files k n p r → least ≤ r)
    (ranked : assetRank? path = some rank) (bound : least ≤ rank) :
    ∀ p r, Candidate (files ++ [(k, path)]) k n p r → least ≤ r := by
  intro p r candidate
  rcases candidate_concat.mp candidate with earlier | ⟨⟨-, -⟩, -, ranked'⟩
  · exact before p r earlier
  · rwa [← Option.some.inj (ranked.symm.trans ranked')]

/-- The file that is kept is the right answer after one more file of the kind and name. -/
theorem Answers.kept {answer : Option String} (h : Answers files k n answer)
    (named : stem? path = some n) : Answers (files ++ [(k, path)]) k n (kept answer path) := by
  unfold AssetIndex.kept
  cases ranked : assetRank? path with
  | none => exact h.pass fun rank _ _ => by simp [ranked]
  | some rank =>
    have new : Candidate (files ++ [(k, path)]) k n path rank :=
      candidate_concat.mpr (.inr ⟨⟨rfl, rfl⟩, named, ranked⟩)
    cases answer with
    | none =>
      have noneBefore := answers_none_iff.mp h
      exact preferred_iff.mpr ⟨rank, new, least_concat
        (fun p r candidate => absurd candidate (noneBefore p r)) ranked (Nat.le_refl rank)⟩
    | some old =>
      obtain ⟨oldRank, held, least⟩ := preferred_iff.mp h
      dsimp only
      rw [held.2.2, Option.all_some]
      split
      next better =>
        -- Nothing before ranks below the old file, so nothing ranks below the new one.
        have better : rank < oldRank := of_decide_eq_true better
        exact preferred_iff.mpr ⟨rank, new, least_concat
          (fun p r candidate => Nat.le_trans (Nat.le_of_lt better) (least p r candidate)) ranked
          (Nat.le_refl rank)⟩
      next worse =>
        have worse : oldRank ≤ rank := Nat.le_of_not_lt fun better => worse (decide_eq_true better)
        exact preferred_iff.mpr
          ⟨oldRank, candidate_concat.mpr (.inl held), least_concat least ranked worse⟩

/-- After one more file the index answers rightly, if it did before. -/
theorem Answers.add (h : Answers files k n (index.find? k n)) (kind : AssetKind) (path : String) :
    Answers (files ++ [(kind, path)]) k n ((index.add kind path).find? k n) := by
  rw [find?_add]
  split
  next key =>
    obtain ⟨rfl, named⟩ := key
    exact h.kept named
  next other => exact h.pass fun _ kinds named => absurd ⟨kinds, named⟩ other

/-! ## All files -/

theorem ofFiles_concat (files : List (AssetKind × String)) (kind : AssetKind) (path : String) :
    ofFiles (files ++ [(kind, path)]) = (ofFiles files).add kind path := by
  simp only [ofFiles, List.foldl_append, List.foldl_cons, List.foldl_nil]

/-- The index of files answers rightly for every kind and name. -/
theorem answers_ofFiles (files : List (AssetKind × String)) (kind : AssetKind) (name : String) :
    Answers files kind name ((ofFiles files).find? kind name) := by
  -- On the last file, which is the last one that the index is folded over.
  induction files using List.reverseRecOn with
  | nil => exact fun path ext mem => absurd mem List.not_mem_nil
  | append_singleton files f ih =>
    rw [ofFiles_concat]
    exact ih.add f.1 f.2

/-- Without files that share a name and an extension, there is one right answer. -/
theorem Answers.unique {a a' : Option String} (h : Answers files k n a)
    (h' : Answers files' k n a') (same : ∀ f, f ∈ files ↔ f ∈ files')
    (distinct : ∀ f ∈ files, ∀ g ∈ files, SameName f g → f = g) : a = a' := by
  have candidates {p : String} {r : Nat} : Candidate files' k n p r ↔ Candidate files k n p r :=
    and_congr_left' (same (k, p)).symm
  cases a with
  | none =>
    cases a' with
    | none => rfl
    | some p' =>
      obtain ⟨r, candidate, -⟩ := preferred_iff.mp h'
      exact absurd (candidates.mp candidate) (answers_none_iff.mp h p' r)
  | some p =>
    obtain ⟨r, candidate, least⟩ := preferred_iff.mp h
    cases a' with
    | none => exact absurd (candidates.mpr candidate) (answers_none_iff.mp h' p r)
    | some p' =>
      obtain ⟨r', candidate', least'⟩ := preferred_iff.mp h'
      have ranks : r = r' := Nat.le_antisymm (least p' r' (candidates.mp candidate'))
        (least' p r (candidates.mpr candidate))
      obtain ⟨mem, named, ranked⟩ := candidate
      obtain ⟨mem', named', ranked'⟩ := candidates.mp candidate'
      obtain ⟨ext, listed, has, place⟩ := assetRank?_eq_some_iff.mp ranked
      obtain ⟨ext', -, has', place'⟩ := assetRank?_eq_some_iff.mp ranked'
      -- Extensions of the same rank are the same, so that the files are.
      obtain rfl : ext = ext' :=
        (List.idxOf_inj listed).mp (place.trans (ranks.trans place'.symm))
      have equal := distinct _ mem _ mem' ⟨rfl, named.trans named'.symm, ext, has, has'⟩
      exact congrArg some (Prod.mk.inj equal).2

/-! ## The entries of the index -/

/-- The kinds and names in an index. -/
def keys (index : AssetIndex) : List (AssetKind × String) := index.map fun a => (a.kind, a.name)

theorem find?_eq_none_iff : index.find? kind name = none ↔ (kind, name) ∉ index.keys := by
  unfold find? keys
  rw [Option.map_eq_none_iff, List.find?_eq_none]
  simp

/-- Adding a file brings no kind and name in twice. -/
theorem nodup_keys_add (h : index.keys.Nodup) (kind : AssetKind) (path : String) :
    (index.add kind path).keys.Nodup := by
  unfold add
  split
  next rank name _ _ =>
    split
    next new =>
      rw [find?_eq_none_iff] at new
      show (List.map _ (index ++ [⟨kind, name, path⟩])).Nodup
      rw [List.map_append]
      exact List.nodup_append_comm.mp (List.nodup_cons.mpr ⟨new, h⟩)
    next old _ =>
      split
      next =>
        have same : (index.replace kind name path).keys = index.keys := by
          unfold keys replace
          rw [List.map_map]
          refine List.map_congr_left fun a _ => ?_
          simp only [Function.comp]
          split
          next => rfl
          next => rfl
        rwa [same]
      next => exact h
  next => exact h

theorem nodup_keys_ofFiles (files : List (AssetKind × String)) : (ofFiles files).keys.Nodup := by
  induction files using List.reverseRecOn with
  | nil => exact List.nodup_nil
  | append_singleton files f ih =>
    rw [ofFiles_concat]
    exact nodup_keys_add ih f.1 f.2

/-- An entry is what the index answers for its kind and name. -/
theorem mem_iff_find? (h : index.keys.Nodup) {a : IndexedAsset} :
    a ∈ index ↔ index.find? a.kind a.name = some a.path := by
  unfold find?
  rw [Option.map_eq_some_iff]
  constructor
  · intro mem
    cases found : List.find? (fun b => b.kind == a.kind && b.name == a.name) index with
    | none => exact absurd mem fun mem => by simpa using List.find?_eq_none.mp found a mem
    | some b =>
      have key := List.find?_some found
      simp only [Bool.and_eq_true, beq_iff_eq] at key
      have same := List.inj_on_of_nodup_map h (List.mem_of_find?_eq_some found) mem
        (congrArg₂ Prod.mk key.1 key.2)
      exact ⟨b, rfl, congrArg IndexedAsset.path same⟩
  · rintro ⟨⟨kind, name, path⟩, found, samePath⟩
    have key := List.find?_some found
    simp only [Bool.and_eq_true, beq_iff_eq] at key
    obtain ⟨rfl, rfl⟩ := key
    obtain rfl : path = a.path := samePath
    exact List.mem_of_find?_eq_some found

/-- Indices that answer alike have the same entries. -/
theorem perm_of_find? {index' : AssetIndex} (h : index.keys.Nodup) (h' : index'.keys.Nodup)
    (alike : ∀ kind name, index.find? kind name = index'.find? kind name) :
    index.Perm index' := by
  refine (List.perm_ext_iff_of_nodup h.of_map h'.of_map).mpr fun a => ?_
  rw [mem_iff_find? h, mem_iff_find? h', alike]

/-- If no two files of a kind share their name and, in lower case, their extension, then the same
files in any order make the same index. For a kind and a name it answers with the file of that
kind and name whose extension comes first among those of assets, and with nothing exactly if no
file of that kind and name has one of these extensions. -/
theorem ofFiles_anyOrder {files files' : List (AssetKind × String)}
    (same : ∀ f, f ∈ files ↔ f ∈ files')
    (distinct : ∀ f ∈ files, ∀ g ∈ files, SameName f g → f = g) :
    (ofFiles files).Perm (ofFiles files') ∧
      (ofFiles files).assets = (ofFiles files').assets ∧
      ∀ kind name,
        (∀ path, (ofFiles files).assets kind name = some path ↔
          Preferred files kind name path) ∧
        ((ofFiles files).assets kind name = none ↔
          ∀ path ext, (kind, path) ∈ files → stem? path = some name →
            lowerExtension? path = some ext → ext ∉ assetExtensions) := by
  have alike (kind : AssetKind) (name : String) :
      (ofFiles files).find? kind name = (ofFiles files').find? kind name :=
    (answers_ofFiles files kind name).unique (answers_ofFiles files' kind name) same distinct
  have right (kind : AssetKind) (name : String) (answer : Option String) :
      (ofFiles files).find? kind name = answer ↔ Answers files kind name answer := by
    have answers := answers_ofFiles files kind name
    exact ⟨fun h => h ▸ answers, fun h => answers.unique h (fun _ => Iff.rfl) distinct⟩
  refine ⟨perm_of_find? (nodup_keys_ofFiles files) (nodup_keys_ofFiles files') alike,
    funext fun kind => funext (alike kind), fun kind name => ⟨fun path => ?_, ?_⟩⟩
  · exact right kind name (some path)
  · exact right kind name none

/-- Extensions in either case, one that is not that of an asset, and none. -/
theorem ofFiles_anyOrder_mixedCase :
    let files : List (AssetKind × String) := [(.background, "bg/room.JPG"),
      (.background, "bg/old/room.txt"), (.background, "bg/room.Png"), (.image, "image/room.WAV"),
      (.background, "bg/room"), (.background, "bg/old/room"), (.background, "bg/notes.txt")]
    (∀ f ∈ files, ∀ g ∈ files, SameName f g → f = g) ∧
      (ofFiles files).Perm (ofFiles files.reverse) ∧
      (ofFiles files.reverse).assets .background "room" = some "bg/room.Png" ∧
      Preferred files .background "room" "bg/room.Png" ∧
      (ofFiles files).assets .background "notes" = none := by
  intro files
  have same : ∀ f, f ∈ files ↔ f ∈ files.reverse := fun f => List.mem_reverse.symm
  have distinct : ∀ f ∈ files, ∀ g ∈ files, SameName f g → f = g := by decide +kernel
  obtain ⟨perm, alike, answer⟩ := ofFiles_anyOrder same distinct
  have found : (ofFiles files).assets .background "room" = some "bg/room.Png" := by
    decide +kernel
  refine ⟨distinct, perm, alike ▸ found, ((answer _ _).1 _).mp found, ?_⟩
  decide +kernel

end AssetIndex

end VisualNovel
